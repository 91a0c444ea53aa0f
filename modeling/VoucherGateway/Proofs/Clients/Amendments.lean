import VoucherGateway.Proofs.Clients.Matching
import VoucherGateway.Proofs.Ledger.Rows

/-!
# Amendments — what is changed in the part of one client

Every query and every session belongs to a client, the *owner* of its number.  A ledger is *tidy* if whatever
stands under the name of a client is the client's own.  An *amendment* changes what stands under the name of
one client; one that fits leaves the ledger tidy.

Main statements: amendments that fit leave the accounts of all other clients alone
(`Matches.amend_unwatched`), and amendments that are the same under other numbers, made on both sides, leave
ledgers that match (`Matches.amend`).
-/

namespace VoucherGateway

variable {S : Scheme} {ρ : Renaming}

namespace Table

variable {κ ν : Type} [DecidableEq κ]

/-- Writes the row of a key, or removes it. -/
def assign (t : Table κ ν) (k : κ) : Option ν → Table κ ν
  | some v => t.put k v
  | none => t.erase k

theorem get?_assign (t : Table κ ν) (k k' : κ) (v : Option ν) :
    (t.assign k v).get? k' = if k' = k then v else t.get? k' := by
  cases v with
  | some v => exact t.get?_put k k' v
  | none => exact t.get?_erase k k'

end Table

/-! ## Tidy ledgers -/

/-- Whose queries and sessions the numbers stand for. -/
structure Owners (S : Scheme) where
  query : QueryId → S.Party
  session : SessionId → S.Party

/-- Queries that are neither half begun nor half settled. -/
structure Query.Regular (q : Query S) : Prop where
  state : q.state = .locked ∨ q.state = .aborted ∨ q.state = .settled ∧ q.receipt.isSome = true
  receipt : ∀ r, q.receipt = some r → r.query = q.id ∧ r.session = q.session

theorem Query.Regular.rename {q : Query S} (h : q.Regular) (ρ : Renaming) : (q.rename ρ).Regular where
  state := by
    rcases h.state with h | h | ⟨h, hreceipt⟩
    · exact .inl h
    · exact .inr (.inl h)
    · exact .inr (.inr ⟨h, (Option.isSome_map ..).trans hreceipt⟩)
  receipt r hr := by
    obtain ⟨r₀, hr₀, rfl⟩ := Option.map_eq_some_iff.1 hr
    obtain ⟨hquery, hsession⟩ := h.receipt r₀ hr₀
    exact ⟨congrArg ρ.query hquery, congrArg ρ.session hsession⟩

namespace Ledger

/-- Whatever stands under the name of a client is the client's own. -/
structure Tidy (owners : Owners S) (L : Ledger S) : Prop where
  filed : ∀ c vendor, ∀ v ∈ ((L.folio c).chain vendor).vouchers, v.client = c
  pending : ∀ c p, (L.folio c).pending = some p →
    p.voucher.client = c ∧ ∀ id, p.query = some id → id.number < L.queries.next ∧ owners.query id = c
  numbered : L.queries.Numbered
  queries : ∀ q ∈ L.queries.rows, owners.query q.id = q.client
  placed : ∀ q ∈ L.queries.rows, q.session.number < L.sessions.next ∧ owners.session q.session = q.client
  regular : ∀ q ∈ L.queries.rows, q.Regular
  below : ∀ s ∈ L.sessions.rows, s.id.number < L.sessions.next
  sessions : ∀ s ∈ L.sessions.rows, owners.session s.id = s.client

end Ledger

/-! ## Amendments -/

/-- A change to what stands under the name of one client. -/
inductive Amendment (S : Scheme)
  | chain (vendor : S.Party) (c : VoucherChain S)
  | cost (which : RunningCost) (atoms : Atoms)
  | pending (p : Option (PendingSpend S))
  | settlement (c : ClientSettlement S)
  | halted (reason : Option String)
  /-- A query is changed. -/
  | query (id : QueryId) (f : Query S → Query S)
  /-- A session is changed. -/
  | session (id : SessionId) (f : Session S → Session S)
  /-- A query number is used up. -/
  | numbered
  /-- A new query is put on record. -/
  | reserved (q : Query S)
  /-- A new session is put on record. -/
  | opened (s : Session S)

namespace Amendment

/-- What an amendment makes of the client's folio. -/
def onFolio : Amendment S → Folio S → Folio S
  | .chain vendor c, f => { f with chain := fun v => if v = vendor then c else f.chain v }
  | .cost which atoms, f =>
    { f with
      unmarked := if which = .unmarked then atoms else f.unmarked
      locked := if which = .locked then atoms else f.locked }
  | .pending p, f => { f with pending := p }
  | .settlement c, f => { f with settlement := c }
  | .halted reason, f => { f with halted := reason }
  | _, f => f

/-- The same amendment under other numbers. -/
inductive Alias (ρ : Renaming) : Amendment S → Amendment S → Prop
  | chain (vendor : S.Party) (c : VoucherChain S) : Alias ρ (.chain vendor c) (.chain vendor c)
  | cost (which : RunningCost) (atoms : Atoms) : Alias ρ (.cost which atoms) (.cost which atoms)
  | pending (p : Option (PendingSpend S)) : Alias ρ (.pending p) (.pending (p.map (·.rename ρ)))
  | settlement (c : ClientSettlement S) : Alias ρ (.settlement c) (.settlement c)
  | halted (reason : Option String) : Alias ρ (.halted reason) (.halted reason)
  | query (id : QueryId) {f f' : Query S → Query S} (h : ∀ q, f' (q.rename ρ) = (f q).rename ρ) :
      Alias ρ (.query id f) (.query (ρ.query id) f')
  | session (id : SessionId) {f f' : Session S → Session S} (h : ∀ s, f' (s.rename ρ) = (f s).rename ρ) :
      Alias ρ (.session id f) (.session (ρ.session id) f')
  | numbered : Alias ρ .numbered .numbered
  | reserved (q : Query S) : Alias ρ (.reserved q) (.reserved (q.rename ρ))
  | opened (s : Session S) : Alias ρ (.opened s) (.opened (s.rename ρ))

theorem onFolio_rename {a a' : Amendment S} (h : a.Alias ρ a') (f : Folio S) :
    a'.onFolio (f.rename ρ) = (a.onFolio f).rename ρ := by
  cases h <;> rfl

end Amendment

namespace Ledger

/-- The ledger after an amendment to the part of a client. -/
def amend (L : Ledger S) (client : S.Party) : Amendment S → Ledger S
  | .chain vendor c => { L with chains := L.chains.put (client, vendor) c }
  | .cost which atoms =>
    { L with
      unmarked := if which = .unmarked then L.unmarked.put client atoms else L.unmarked
      locked := if which = .locked then L.locked.put client atoms else L.locked }
  | .pending p => { L with interrupted := L.interrupted.assign client p }
  | .settlement c => { L with settlement := L.settlement.put client c }
  | .halted reason => { L with halted := L.halted.assign client reason }
  | .query id f => { L with queries := L.queries.update id f }
  | .session id f => { L with sessions := L.sessions.update id f }
  | .numbered => { L with queries := L.queries.allocate.2 }
  | .reserved q => { L with queries := L.queries.allocate.2.insert q }
  | .opened s => { L with sessions := { next := L.sessions.next + 1, rows := L.sessions.rows ++ [s] } }

/-- An amendment keeps to the client's own. -/
def Fits (owners : Owners S) (L : Ledger S) (client : S.Party) : Amendment S → Prop
  | .chain _ c => ∀ v ∈ c.vouchers, v.client = client
  | .pending p => ∀ p', p = some p' →
      p'.voucher.client = client ∧
        ∀ id, p'.query = some id → id.number < L.queries.next ∧ owners.query id = client
  | .query id f => owners.query id = client ∧ ∀ q ∈ L.queries.rows, q.id = id →
      (f q).id = q.id ∧ (f q).client = q.client ∧ (f q).session = q.session ∧ (f q).Regular
  | .session id f => owners.session id = client ∧ ∀ s, (f s).id = s.id ∧ (f s).client = s.client
  | .reserved q => q.id.number = L.queries.next ∧ owners.query q.id = client ∧ q.client = client ∧
      q.session.number < L.sessions.next ∧ owners.session q.session = client ∧ q.Regular
  | .opened s => s.id.number = L.sessions.next ∧ owners.session s.id = client ∧ s.client = client
  | _ => True

theorem folio_amend (L : Ledger S) (client c : S.Party) (a : Amendment S) :
    (L.amend client a).folio c = if c = client then a.onFolio (L.folio client) else L.folio c := by
  by_cases hc : c = client
  · subst hc
    rw [if_pos rfl]
    cases a with
    | chain vendor chain =>
      simp only [amend, folio, Amendment.onFolio, Table.get?_put, Prod.mk.injEq, true_and]
      congr 1
      funext v
      split <;> rfl
    | cost which atoms => cases which <;> simp [amend, folio, Amendment.onFolio, unmarkedOf, lockedOf, pending]
    | _ =>
      simp [amend, folio, Amendment.onFolio, unmarkedOf, lockedOf, pending, Table.get?_assign, Settlement.of_put]
  · rw [if_neg hc]
    cases a with
    | cost which atoms =>
      cases which <;> simp [amend, folio, unmarkedOf, lockedOf, pending, Table.get?_put, hc]
    | _ =>
      simp [amend, folio, unmarkedOf, lockedOf, pending, Table.get?_put, Table.get?_assign,
        Settlement.of_put, hc]

theorem next_query_amend (L : Ledger S) (client : S.Party) (a : Amendment S) :
    L.queries.next ≤ (L.amend client a).queries.next := by
  cases a with
  | numbered => exact Nat.le_succ _
  | reserved q => exact Nat.le_succ _
  | _ => exact Nat.le_refl _

theorem next_session_amend (L : Ledger S) (client : S.Party) (a : Amendment S) :
    L.sessions.next ≤ (L.amend client a).sessions.next := by
  cases a with
  | opened s => exact Nat.le_succ _
  | _ => exact Nat.le_refl _

variable {L L' : Ledger S} {client : S.Party} {a a' : Amendment S} {owners owners' : Owners S}

/-- Where the queries on record after an amendment come from. -/
theorem mem_queries_amend {x : Query S} (hx : x ∈ (L.amend client a).queries.rows) :
    x ∈ L.queries.rows ∨ (∃ id f q, a = .query id f ∧ q ∈ L.queries.rows ∧ q.id = id ∧ x = f q) ∨
      a = .reserved x := by
  cases a with
  | query id f =>
    obtain ⟨q, hq, rfl⟩ := List.mem_map.1 hx
    by_cases hid : q.id = id
    · rw [if_pos hid]
      exact .inr (.inl ⟨id, f, q, rfl, hq, hid, rfl⟩)
    · rw [if_neg hid]
      exact .inl hq
  | reserved q =>
    rcases List.mem_append.1 hx with hx | hx
    · exact .inl hx
    · rw [List.mem_singleton.1 hx]
      exact .inr (.inr rfl)
  | _ => exact .inl hx

/-- Where the sessions on record after an amendment come from. -/
theorem mem_sessions_amend {x : Session S} (hx : x ∈ (L.amend client a).sessions.rows) :
    x ∈ L.sessions.rows ∨ (∃ id f s, a = .session id f ∧ s ∈ L.sessions.rows ∧ x = f s) ∨
      a = .opened x := by
  cases a with
  | session id f =>
    obtain ⟨s, hs, rfl⟩ := List.mem_map.1 hx
    by_cases hid : s.id = id
    · rw [if_pos hid]
      exact .inr (.inl ⟨id, f, s, rfl, hs, rfl⟩)
    · rw [if_neg hid]
      exact .inl hs
  | opened s =>
    rcases List.mem_append.1 hx with hx | hx
    · exact .inl hx
    · rw [List.mem_singleton.1 hx]
      exact .inr (.inr rfl)
  | _ => exact .inl hx

theorem numbered_amend (h : L.queries.Numbered) (hfits : L.Fits owners client a) :
    (L.amend client a).queries.Numbered := by
  cases a with
  | query id f =>
    have hid : ∀ q ∈ L.queries.rows, (if q.id = id then f q else q).id = q.id := by
      intro q hq
      split
      · next hq' => exact (hfits.2 q hq hq').1
      · rfl
    refine ⟨?_, ?_⟩
    · change ((L.queries.rows.map fun q => if q.id = id then f q else q).map (·.id)).Nodup
      rw [List.map_map]
      exact (List.map_congr_left hid) ▸ h.nodup
    · intro x hx
      obtain ⟨q, hq, rfl⟩ := List.mem_map.1 hx
      rw [hid q hq]
      exact h.below q hq
  | numbered => exact ⟨h.nodup, fun q hq => Nat.lt_succ_of_lt (h.below q hq)⟩
  | reserved q =>
    have hnew : q.id.number = L.queries.next := hfits.1
    refine ⟨?_, ?_⟩
    · change ((L.queries.rows ++ [q]).map (·.id)).Nodup
      rw [List.map_append]
      refine List.nodup_append.2 ⟨h.nodup, by simp, ?_⟩
      intro i hi j hj
      obtain ⟨x, hx, rfl⟩ := List.mem_map.1 hi
      obtain rfl : j = q.id := by simpa using hj
      intro heq
      have hbelow := h.below x hx
      rw [heq, hnew] at hbelow
      omega
    · intro x hx
      rcases List.mem_append.1 hx with hx | hx
      · exact Nat.lt_succ_of_lt (h.below x hx)
      · rw [List.mem_singleton.1 hx, hnew]
        exact Nat.lt_succ_self _
  | _ => exact h

/-- Amendments that fit leave a tidy ledger. -/
theorem Tidy.amend (h : L.Tidy owners) (hfits : L.Fits owners client a) : (L.amend client a).Tidy owners where
  filed c vendor v hv := by
    rw [folio_amend] at hv
    split at hv
    · next hc =>
      subst hc
      cases a with
      | chain vendor' chain =>
        simp only [Amendment.onFolio] at hv
        split at hv
        · exact hfits v hv
        · exact h.filed c vendor v hv
      | _ => exact h.filed c vendor v hv
    · exact h.filed c vendor v hv
  pending c p hp := by
    -- a number given out before is still one that was given out
    have later : ∀ {p : PendingSpend S} {c : S.Party}, (p.voucher.client = c ∧ ∀ id, p.query = some id →
        id.number < L.queries.next ∧ owners.query id = c) → p.voucher.client = c ∧ ∀ id, p.query = some id →
        id.number < (L.amend client a).queries.next ∧ owners.query id = c := fun hp =>
      ⟨hp.1, fun id hid => ⟨Nat.lt_of_lt_of_le (hp.2 id hid).1 (next_query_amend L client a), (hp.2 id hid).2⟩⟩
    rw [folio_amend] at hp
    split at hp
    · next hc =>
      subst hc
      cases a with
      | pending p' => exact later (hfits p hp)
      | _ => exact later (h.pending c p hp)
    · exact later (h.pending c p hp)
  numbered := numbered_amend h.numbered hfits
  queries x hx := by
    rcases mem_queries_amend hx with hx | ⟨id, f, q, rfl, hq, hid, rfl⟩ | rfl
    · exact h.queries x hx
    · obtain ⟨hid', hclient, -⟩ := hfits.2 q hq hid
      rw [hid', hclient]
      exact h.queries q hq
    · exact hfits.2.1.trans hfits.2.2.1.symm
  placed x hx := by
    have later : ∀ {n : Nat}, n < L.sessions.next → n < (L.amend client a).sessions.next := fun hn =>
      Nat.lt_of_lt_of_le hn (next_session_amend L client a)
    rcases mem_queries_amend hx with hx | ⟨id, f, q, rfl, hq, hid, rfl⟩ | rfl
    · exact ⟨later (h.placed x hx).1, (h.placed x hx).2⟩
    · obtain ⟨-, hclient, hsession, -⟩ := hfits.2 q hq hid
      rw [hclient, hsession]
      exact ⟨later (h.placed q hq).1, (h.placed q hq).2⟩
    · obtain ⟨-, -, hclient, hbelow, howner, -⟩ := hfits
      exact ⟨later hbelow, howner.trans hclient.symm⟩
  regular x hx := by
    rcases mem_queries_amend hx with hx | ⟨id, f, q, rfl, hq, hid, rfl⟩ | rfl
    · exact h.regular x hx
    · exact (hfits.2 q hq hid).2.2.2
    · exact hfits.2.2.2.2.2
  below x hx := by
    rcases mem_sessions_amend hx with hx | ⟨id, f, s, rfl, hs, rfl⟩ | rfl
    · exact Nat.lt_of_lt_of_le (h.below x hx) (next_session_amend L client a)
    · exact (hfits.2 s).1 ▸ h.below s hs
    · exact Nat.lt_succ_of_le (Nat.le_of_eq hfits.1)
  sessions x hx := by
    rcases mem_sessions_amend hx with hx | ⟨id, f, s, rfl, hs, rfl⟩ | rfl
    · exact h.sessions x hx
    · rw [(hfits.2 s).1, (hfits.2 s).2]
      exact h.sessions s hs
    · exact hfits.2.1.trans hfits.2.2.symm

/-! ## Matching through amendments -/

section Rows

variable {α κ : Type} [DecidableEq κ] {p : α → Bool} {key : α → κ} {k k' : κ} {f f' r : α → α} {rows rows' : List α}

/-- An update that turns no row into one that passes, nor the other way, leaves the same rows to pass. -/
theorem filter_comp_update (hp : ∀ x ∈ rows, key x = k → p (f x) = p x) :
    rows.filter (p ∘ fun x => if key x = k then f x else x) = rows.filter p := by
  refine List.filter_congr fun x hx => ?_
  by_cases hkey : key x = k
  · exact (congrArg p (if_pos hkey)).trans (hp x hx hkey)
  · exact congrArg p (if_neg hkey)

/-- Rows in which an update of others is not seen. -/
theorem filter_update_of_spared (hp : ∀ x ∈ rows, key x = k → p (f x) = p x)
    (hk : ∀ x ∈ rows, key x = k → p x = false) :
    (rows.map fun x => if key x = k then f x else x).filter p = rows.filter p := by
  rw [List.filter_map, filter_comp_update hp]
  conv_rhs => rw [← List.map_id (rows.filter p)]
  refine List.map_congr_left fun x hx => if_neg fun hkey => ?_
  obtain ⟨hmem, hpx⟩ := List.mem_filter.1 hx
  exact Bool.false_ne_true ((hk x hmem hkey).symm.trans hpx)

/-- Rows that are the same under other names are so after updates that are. -/
theorem filter_update_of_matched (h : rows'.filter p = (rows.filter p).map r)
    (hp : ∀ x ∈ rows, key x = k → p (f x) = p x) (hp' : ∀ x ∈ rows', key x = k' → p (f' x) = p x)
    (hkey : ∀ x, key (r x) = k' ↔ key x = k) (hf : ∀ x, f' (r x) = r (f x)) :
    (rows'.map fun x => if key x = k' then f' x else x).filter p =
      ((rows.map fun x => if key x = k then f x else x).filter p).map r := by
  rw [List.filter_map, List.filter_map, filter_comp_update hp, filter_comp_update hp', h, List.map_map, List.map_map]
  refine List.map_congr_left fun x _ => ?_
  simp only [Function.comp_apply, hkey, hf]
  split <;> rfl

end Rows

namespace Matches

variable {watched : S.Party → Bool} {K : Ledger S}

/-- Amendments to the part of a client leave the parts of others alone. -/
theorem amend_unwatched (h : K.Matches watched ρ L) (htidy : L.Tidy owners) (hfits : L.Fits owners client a)
    (hclient : watched client = false) : K.Matches watched ρ (L.amend client a) where
  folio c hc := by
    have hne : c ≠ client := by
      rintro rfl
      rw [hc] at hclient
      cases hclient
    rw [folio_amend, if_neg hne]
    exact h.folio c hc
  queries := by
    rw [← h.queries]
    cases a with
    | query id f =>
      -- the number is the client's, so no row of another client has it
      refine filter_update_of_spared ?_ ?_
      · intro q hq hid
        rw [(hfits.2 q hq hid).2.1]
      · rintro q hq rfl
        rw [← htidy.queries q hq, hfits.1, hclient]
    | reserved q =>
      obtain ⟨-, -, hq, -⟩ := hfits
      change (L.queries.rows ++ [q]).filter _ = _
      simp [hq, hclient]
    | _ => rfl
  sessions := by
    rw [← h.sessions]
    cases a with
    | session id f =>
      refine filter_update_of_spared ?_ ?_
      · intro s _ _
        rw [(hfits.2 s).2]
      · rintro s hs rfl
        rw [← htidy.sessions s hs, hfits.1, hclient]
    | opened s =>
      obtain ⟨-, -, hs⟩ := hfits
      change (L.sessions.rows ++ [s]).filter _ = _
      simp [hs, hclient]
    | _ => rfl

/-- Amendments that are the same under other numbers leave ledgers that match. -/
theorem amend (h : L.Matches watched ρ L') (hfits : L.Fits owners client a)
    (hfits' : L'.Fits owners' client a') (halias : a.Alias ρ a') (hclient : watched client = true) :
    (L.amend client a).Matches watched ρ (L'.amend client a') where
  folio c hc := by
    rw [folio_amend, folio_amend]
    split
    · next hcc =>
      subst hcc
      rw [h.folio c hc, Amendment.onFolio_rename halias]
    · exact h.folio c hc
  queries := by
    cases halias with
    | query id hf =>
      refine filter_update_of_matched h.queries ?_ ?_ (fun q => ρ.query_injective.eq_iff) hf
      · intro q hq hid
        rw [(hfits.2 q hq hid).2.1]
      · intro q hq hid
        rw [(hfits'.2 q hq hid).2.1]
    | reserved q =>
      change (L'.queries.rows ++ [q.rename ρ]).filter _ = ((L.queries.rows ++ [q]).filter _).map _
      obtain ⟨-, -, hq, -⟩ := hfits
      have hq' : (q.rename ρ).client = client := hq
      simp [h.queries, hq, hq', hclient]
    | _ => exact h.queries
  sessions := by
    cases halias with
    | session id hf =>
      refine filter_update_of_matched h.sessions ?_ ?_ (fun s => ρ.session_injective.eq_iff) hf
      · intro s _ _
        rw [(hfits.2 s).2]
      · intro s _ _
        rw [(hfits'.2 s).2]
    | opened s =>
      change (L'.sessions.rows ++ [s.rename ρ]).filter _ = ((L.sessions.rows ++ [s]).filter _).map _
      obtain ⟨-, -, hs⟩ := hfits
      have hs' : (s.rename ρ).client = client := hs
      simp [h.sessions, hs, hs', hclient]
    | _ => exact h.sessions

/-! ## Looking rows up -/

/-- A row that passes a test can be looked for among those that do. -/
theorem find?_filter_of_imp {α : Type} (p : α → Bool) {q : α → Bool} {rows : List α}
    (h : ∀ x ∈ rows, q x = true → p x = true) : (rows.filter p).find? q = rows.find? q := by
  induction rows with
  | nil => rfl
  | cons x rows ih =>
    have ih := ih fun y hy => h y (List.mem_cons_of_mem x hy)
    have hx := h x List.mem_cons_self
    cases hq : q x <;> cases hp : p x <;> simp_all

/-- A query is found under its other number if it is found at all. -/
theorem find?_query (h : L.Matches watched ρ L') {id : QueryId}
    (hw : ∀ q ∈ L.queries.rows, q.id = id → watched q.client = true)
    (hw' : ∀ q ∈ L'.queries.rows, q.id = ρ.query id → watched q.client = true) :
    L'.queries.find? (ρ.query id) = (L.queries.find? id).map (·.rename ρ) := by
  unfold QueryTable.find?
  rw [← find?_filter_of_imp (fun q : Query S => watched q.client)
      (fun q hq hid => hw' q hq (of_decide_eq_true hid)),
    ← find?_filter_of_imp (fun q : Query S => watched q.client)
      (fun q hq hid => hw q hq (of_decide_eq_true hid)), h.queries, List.find?_map]
  have hiff : ∀ q : Query S, (q.rename ρ).id = ρ.query id ↔ q.id = id := fun q => ρ.query_injective.eq_iff
  simp only [Function.comp_def, hiff]

/-- A session is found under its other number if it is found at all. -/
theorem find?_session (h : L.Matches watched ρ L') {id : SessionId}
    (hw : ∀ s ∈ L.sessions.rows, s.id = id → watched s.client = true)
    (hw' : ∀ s ∈ L'.sessions.rows, s.id = ρ.session id → watched s.client = true) :
    L'.sessions.find? (ρ.session id) = (L.sessions.find? id).map (·.rename ρ) := by
  unfold SessionTable.find?
  rw [← find?_filter_of_imp (fun s : Session S => watched s.client)
      (fun s hs hid => hw' s hs (of_decide_eq_true hid)),
    ← find?_filter_of_imp (fun s : Session S => watched s.client)
      (fun s hs hid => hw s hs (of_decide_eq_true hid)), h.sessions, List.find?_map]
  have hiff : ∀ s : Session S, (s.rename ρ).id = ρ.session id ↔ s.id = id := fun s => ρ.session_injective.eq_iff
  simp only [Function.comp_def, hiff]

/-- A session has locked queries under its other number if it has any. -/
theorem hasLockedIn (h : L.Matches watched ρ L') {id : SessionId}
    (hw : ∀ q ∈ L.queries.rows, q.session = id → watched q.client = true)
    (hw' : ∀ q ∈ L'.queries.rows, q.session = ρ.session id → watched q.client = true) :
    L'.queries.hasLockedIn (ρ.session id) = L.queries.hasLockedIn id := by
  have among : ∀ {rows : List (Query S)} {p : Query S → Bool}, (∀ q ∈ rows, p q = true → watched q.client = true) →
      rows.any p = (rows.filter fun q => watched q.client).any p := by
    intro rows p himp
    rw [Bool.eq_iff_iff]
    simp only [List.any_eq_true, List.mem_filter]
    constructor
    · rintro ⟨q, hq, hp⟩
      exact ⟨q, ⟨hq, himp q hq hp⟩, hp⟩
    · rintro ⟨q, ⟨hq, -⟩, hp⟩
      exact ⟨q, hq, hp⟩
  -- on both sides the watched rows alone decide, and those are the same
  unfold QueryTable.hasLockedIn
  rw [among fun q hq hp => hw' q hq (of_decide_eq_true (Bool.and_eq_true_iff.1 hp).1),
    among fun q hq hp => hw q hq (of_decide_eq_true (Bool.and_eq_true_iff.1 hp).1), h.queries, List.any_map]
  have hiff : ∀ q : Query S, (q.rename ρ).session = ρ.session id ↔ q.session = id := fun q =>
    ρ.session_injective.eq_iff
  have hstate : ∀ q : Query S, (q.rename ρ).state = q.state := fun _ => rfl
  simp only [Function.comp_def, hiff, hstate]

end Matches
end Ledger
end VoucherGateway
