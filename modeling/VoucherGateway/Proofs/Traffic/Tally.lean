import Mathlib.Data.List.Nodup
import VoucherGateway.Proofs.Ledger.Rows

/-!
# Tally — counters and tables side by side

The counters say how many sessions were opened and closed, how many queries were locked and finished, and how
many requests were refused.  The tables say which sessions are open and which queries are locked.  The *tally*
of a gateway is what has to be known of both to compare them: of each row its number and how far it has come.

Main statements: what may happen to a tally leaves it reconciled (`Reconciled.opens`, `Reconciled.closes`,
`Reconciled.locks`, `Reconciled.finishes`, `Reconciled.purges`).
-/

namespace VoucherGateway

variable {S : Scheme} {α : Type}

/-! ## Registers -/

/-- Numbered rows, and the number of the next one. -/
structure Register (α : Type) where
  next : Nat := 1
  rows : List (Nat × α) := []

namespace Register

/-- Every row has a number of its own, which was given out. -/
structure Numbered (r : Register α) : Prop where
  nodup : (r.rows.map (·.1)).Nodup
  below : ∀ row ∈ r.rows, row.1 < r.next

/-- How many rows are of a kind. -/
def count (r : Register α) (p : α → Bool) : Nat := r.rows.countP fun row => p row.2

/-- Uses a number up. -/
def skip (r : Register α) : Register α := { r with next := r.next + 1 }

/-- Adds a row under the next number. -/
def add (r : Register α) (a : α) : Register α := { next := r.next + 1, rows := r.rows ++ [(r.next, a)] }

/-- Rewrites the row of a number. -/
def put (r : Register α) (n : Nat) (a : α) : Register α :=
  { r with rows := r.rows.map fun row => if row.1 = n then (n, a) else row }

/-- Keeps the rows of a kind. -/
def keep (r : Register α) (p : α → Bool) : Register α := { r with rows := r.rows.filter fun row => p row.2 }

variable {r : Register α} {p : α → Bool}

theorem Numbered.skip (h : r.Numbered) : r.skip.Numbered :=
  ⟨h.nodup, fun row hrow => Nat.lt_succ_of_lt (h.below row hrow)⟩

theorem Numbered.add (h : r.Numbered) (a : α) : (r.add a).Numbered where
  nodup := by
    have hnew : r.next ∉ r.rows.map (·.1) := by
      intro hmem
      obtain ⟨row, hrow, hnext⟩ := List.mem_map.1 hmem
      exact absurd (h.below row hrow) (by omega)
    simp only [Register.add, List.map_append, List.map_cons, List.map_nil]
    exact List.nodup_append_comm.1 (List.nodup_cons.2 ⟨hnew, h.nodup⟩)
  below row hrow := by
    rcases List.mem_append.1 hrow with hrow | hrow
    · exact Nat.lt_succ_of_lt (h.below row hrow)
    · rw [List.mem_singleton.1 hrow]
      exact Nat.lt_succ_self _

theorem keys_put (r : Register α) (n : Nat) (a : α) : (r.put n a).rows.map (·.1) = r.rows.map (·.1) := by
  simp only [put, List.map_map]
  refine List.map_congr_left fun row _ => ?_
  dsimp only [Function.comp_apply]
  split
  · next hn => exact hn.symm
  · rfl

theorem Numbered.put (h : r.Numbered) (n : Nat) (a : α) : (r.put n a).Numbered where
  nodup := (keys_put r n a).symm ▸ h.nodup
  below row hrow := by
    have hkey : row.1 ∈ r.rows.map (·.1) := keys_put r n a ▸ List.mem_map_of_mem hrow
    obtain ⟨old, hold, hsame⟩ := List.mem_map.1 hkey
    exact hsame ▸ h.below old hold

theorem Numbered.keep (h : r.Numbered) (p : α → Bool) : (r.keep p).Numbered where
  nodup := h.nodup.sublist (List.filter_sublist.map _)
  below row hrow := h.below row (List.mem_filter.1 hrow).1

theorem count_add (a : α) : (r.add a).count p = r.count p + (p a).toNat := by
  cases ha : p a <;> simp [count, add, ha]

/-- A row that is not of a kind any more was one of them. -/
theorem Numbered.count_put (h : r.Numbered) {n : Nat} {a b : α} (hmem : (n, a) ∈ r.rows) (ha : p a = true)
    (hb : p b = false) : r.count p = (r.put n b).count p + 1 := by
  obtain ⟨front, back, hrows⟩ := List.append_of_mem hmem
  have hnodup := h.nodup
  simp only [hrows, List.map_append, List.map_cons, List.nodup_middle, List.nodup_cons, List.mem_append,
    not_or] at hnodup
  obtain ⟨⟨hfront, hback⟩, -⟩ := hnodup
  have untouched : ∀ {rows : List (Nat × α)}, n ∉ rows.map (·.1) →
      (rows.map fun row => if row.1 = n then (n, b) else row) = rows := by
    intro rows hn
    refine (List.map_congr_left fun row hrow => if_neg ?_).trans (List.map_id' rows)
    exact fun heq => hn (List.mem_map.2 ⟨row, hrow, heq⟩)
  simp only [Register.count, Register.put, hrows, List.map_append, List.map_cons, untouched hfront,
    untouched hback, if_true, List.countP_append, List.countP_cons, ha, hb, Bool.false_eq_true, if_false]
  omega

/-- To write what stands there changes nothing. -/
theorem Numbered.put_same (h : r.Numbered) {n : Nat} {a : α} (hmem : (n, a) ∈ r.rows) : r.put n a = r := by
  have hrows : (r.rows.map fun row => if row.1 = n then (n, a) else row) = r.rows := by
    refine (List.map_congr_left fun row hrow => ?_).trans (List.map_id' r.rows)
    split
    · next hn => exact (List.inj_on_of_nodup_map h.nodup hrow hmem hn).symm
    · rfl
  simp only [Register.put, hrows]

/-- A row that is not counted may be dropped. -/
theorem count_keep {k : α → Bool} (h : ∀ row ∈ r.rows, p row.2 = true → k row.2 = true) :
    (r.keep k).count p = r.count p := by
  simp only [count, keep, List.countP_filter]
  refine List.countP_congr fun row hrow => ?_
  simp only [Bool.and_eq_true, and_iff_left_iff_imp]
  exact h row hrow

theorem mem_add {a : α} {row : Nat × α} (h : row ∈ (r.add a).rows) : row ∈ r.rows ∨ row.2 = a := by
  rcases List.mem_append.1 h with h | h
  · exact .inl h
  · exact .inr (congrArg Prod.snd (List.mem_singleton.1 h))

theorem mem_put {n : Nat} {a : α} {row : Nat × α} (h : row ∈ (r.put n a).rows) : row ∈ r.rows ∨ row.2 = a := by
  obtain ⟨old, hold, rfl⟩ := List.mem_map.1 h
  split
  · exact .inr rfl
  · exact .inl hold

/-! Rows as they are seen of other rows. -/

variable {β : Type} {row : β → Nat × α} {selected : β → Prop} [DecidablePred selected] {f : β → β}

theorem map_update {n : Nat} {a : α} (hselected : ∀ x, selected x ↔ (row x).1 = n)
    (hf : ∀ x, selected x → row (f x) = (n, a)) (rows : List β) :
    (rows.map fun x => if selected x then f x else x).map row =
      (rows.map row).map fun r => if r.1 = n then (n, a) else r := by
  rw [List.map_map, List.map_map]
  refine List.map_congr_left fun x _ => ?_
  dsimp only [Function.comp_apply]
  by_cases hx : selected x
  · rw [if_pos hx, if_pos ((hselected x).1 hx), hf x hx]
  · rw [if_neg hx, if_neg fun hn => hx ((hselected x).2 hn)]

theorem map_update_of_same (hf : ∀ x, row (f x) = row x) (rows : List β) :
    (rows.map fun x => if selected x then f x else x).map row = rows.map row := by
  rw [List.map_map]
  refine List.map_congr_left fun x _ => ?_
  dsimp only [Function.comp_apply]
  split
  · exact hf x
  · rfl

end Register

/-! ## Tallies -/

/-- How far a query has come, and when it was finished. -/
abbrev QueryStanding := QueryState × Option Nat

/-- Whether a query is locked. -/
def QueryStanding.isLocked (s : QueryStanding) : Bool := decide (s.1 = .locked)

/-- The standing of a query. -/
def Query.standing (q : Query S) : QueryStanding := (q.state, q.finishedAt)

/-- What is known of a query. -/
def Query.row (q : Query S) : Nat × QueryStanding := (q.id.number, q.standing)

/-- What is known of a session: when it was closed. -/
def Session.row (s : Session S) : Nat × Option Nat := (s.id.number, s.closedAt)

/-- The number of locked queries. -/
def QueryTable.lockedCount (t : QueryTable S) : Nat := t.rows.countP fun q => decide (q.state = .locked)

namespace QueryTable

/-- What is known of the queries. -/
def register (t : QueryTable S) : Register QueryStanding := ⟨t.next, t.rows.map (·.row)⟩

theorem lockedCount_eq (t : QueryTable S) : t.lockedCount = t.register.count (·.isLocked) := by
  simp only [lockedCount, register, Register.count, List.countP_map]
  rfl

theorem row_mem_of_find? {t : QueryTable S} {id : QueryId} {q : Query S} (h : t.find? id = some q) :
    (id.number, q.standing) ∈ t.register.rows := by
  obtain ⟨hmem, rfl⟩ := mem_of_find? h
  exact List.mem_map_of_mem hmem

theorem register_update (t : QueryTable S) {id : QueryId} {f : Query S → Query S} {standing : QueryStanding}
    (hf : ∀ q, q.id = id → (f q).row = (id.number, standing)) :
    (t.update id f).register = t.register.put id.number standing :=
  congrArg (Register.mk t.next) <|
    Register.map_update (fun _ => ⟨congrArg QueryId.number, congrArg QueryId.mk⟩) hf t.rows

theorem register_update_of_same (t : QueryTable S) (id : QueryId) {f : Query S → Query S}
    (hf : ∀ q, (f q).row = q.row) : (t.update id f).register = t.register :=
  congrArg (Register.mk t.next) (Register.map_update_of_same hf t.rows)

theorem register_insert (t : QueryTable S) (q : Query S) :
    (t.insert q).register = { t.register with rows := t.register.rows ++ [q.row] } := by
  simp only [register, insert, List.map_append, List.map_cons, List.map_nil]

theorem register_purge (t : QueryTable S) (now retention : Nat) :
    (t.purge now retention).register =
      t.register.keep fun standing => !standing.2.any fun time => decide (retention ≤ now - time) := by
  simp only [register, purge, Register.keep, List.filter_map]
  rfl

end QueryTable

namespace SessionTable

/-- What is known of the sessions. -/
def register (t : SessionTable S) : Register (Option Nat) := ⟨t.next, t.rows.map (·.row)⟩

theorem openCount_eq (t : SessionTable S) : t.openCount = t.register.count (·.isNone) := by
  simp only [openCount, register, Register.count, List.countP_map]
  rfl

theorem row_mem_of_find? {t : SessionTable S} {id : SessionId} {s : Session S} (h : t.find? id = some s) :
    (id.number, s.closedAt) ∈ t.register.rows := by
  obtain ⟨hmem, rfl⟩ := mem_of_find? h
  exact List.mem_map_of_mem hmem

theorem register_openSession (t : SessionTable S) (client vendor : S.Party) (nonce : UInt64) (now : Nat) :
    (t.openSession client vendor nonce now).2.register = t.register.add none := by
  simp only [register, openSession, Register.add, List.map_append, List.map_cons, List.map_nil]
  rfl

theorem register_close (t : SessionTable S) (id : SessionId) (now : Nat) :
    (t.close id now).register = t.register.put id.number (some now) :=
  congrArg (Register.mk t.next) <|
    Register.map_update (fun _ => ⟨congrArg SessionId.number, congrArg SessionId.mk⟩)
      (fun _ (hid : _ = id) => hid ▸ rfl) t.rows

theorem register_update_of_same (t : SessionTable S) (id : SessionId) {f : Session S → Session S}
    (hf : ∀ s, (f s).row = s.row) : (t.update id f).register = t.register :=
  congrArg (Register.mk t.next) (Register.map_update_of_same hf t.rows)

theorem register_purge (t : SessionTable S) (now retention : Nat) :
    (t.purge now retention).register =
      t.register.keep fun closedAt => !closedAt.any fun time => decide (retention ≤ now - time) := by
  simp only [register, purge, Register.keep, List.filter_map]
  rfl

end SessionTable

/-- Counters, and what the tables say. -/
structure Tally where
  counters : Counters := {}
  queries : Register QueryStanding := {}
  sessions : Register (Option Nat) := {}

/-- The tally of a gateway. -/
def Gateway.tally (g : Gateway S) : Tally := ⟨g.metrics.counters, g.queries.register, g.sessions.register⟩

/-- How many vouchers and how many queries were refused. -/
structure Refusals where
  vouchers : Nat := 0
  queries : Nat := 0
  deriving DecidableEq, Repr

instance : Zero Refusals := ⟨{}⟩

instance : Add Refusals := ⟨fun n m => ⟨n.vouchers + m.vouchers, n.queries + m.queries⟩⟩

/-- The events that finish a query in a state. -/
inductive Event.Finishes : Event → QueryState → Prop
  | settled (cost : Atoms) : Finishes (.querySettled cost) .settled
  | aborted (forced : Bool) : Finishes (.queryAborted forced) .aborted

namespace Tally

/-- The counters agree with the tables, and with so many refusals. -/
structure Reconciled (n : Refusals) (T : Tally) : Prop where
  queries : T.queries.Numbered
  sessions : T.sessions.Numbered
  /-- A locked query is not finished. -/
  unfinished : ∀ row ∈ T.queries.rows, row.2.isLocked = true → row.2.2 = none
  opened : T.counters.sessionsAccepted =
    T.counters.sessionsClosed + UInt64.ofNat (T.sessions.count (·.isNone))
  locked : T.counters.queriesLocked =
    T.counters.queriesSettled + T.counters.queriesAborted + T.counters.queriesForceAborted +
      UInt64.ofNat (T.queries.count (·.isLocked))
  vouchers : T.counters.sessionsRejected = UInt64.ofNat n.vouchers
  refused : T.counters.queriesRejected = UInt64.ofNat n.queries

/-- What comes after keeps the books, and counts so many refusals more. -/
def Counted (n : Refusals) (T U : Tally) : Prop := ∀ m, T.Reconciled m → U.Reconciled (m + n)

theorem Counted.refl (T : Tally) : Counted 0 T T := fun _ h => h

theorem Counted.trans {n : Refusals} {T U V : Tally} (h : Counted 0 T U) (h' : Counted n U V) : Counted n T V :=
  fun m hT => h' m (h m hT)

variable {n : Refusals} {T : Tally}

theorem reconciled_empty : ({} : Tally).Reconciled 0 where
  queries := ⟨List.nodup_nil, fun _ h => (List.not_mem_nil h).elim⟩
  sessions := ⟨List.nodup_nil, fun _ h => (List.not_mem_nil h).elim⟩
  unfinished _ h := (List.not_mem_nil h).elim
  opened := rfl
  locked := rfl
  vouchers := rfl
  refused := rfl

/-! ## What happens to a tally -/

namespace Reconciled

/-- A session is opened. -/
theorem opens (h : T.Reconciled n) :
    Reconciled n { T with counters := T.counters.count .sessionAccepted, sessions := T.sessions.add none } :=
  { h with
    sessions := h.sessions.add none
    opened := by
      have hopened := h.opened
      simp only [Counters.count, Register.count_add, Option.isNone_none, Bool.toNat_true, UInt64.ofNat_add]
      grind }

/-- An open session is closed. -/
theorem closes (h : T.Reconciled n) {id : Nat} (hopen : (id, none) ∈ T.sessions.rows) (time : Nat) :
    Reconciled n
      { T with counters := T.counters.count .sessionClosed, sessions := T.sessions.put id (some time) } :=
  { h with
    sessions := h.sessions.put id _
    opened := by
      have hopened := h.opened
      have hcount := h.sessions.count_put (p := (·.isNone)) (b := some time) hopen rfl rfl
      rw [hcount, UInt64.ofNat_add] at hopened
      simp only [Counters.count]
      grind }

/-- The number of a query is used up. -/
theorem skips (h : T.Reconciled n) : Reconciled n { T with queries := T.queries.skip } :=
  { h with queries := h.queries.skip }

/-- A query is locked. -/
theorem locks (h : T.Reconciled n) :
    Reconciled n
      { T with counters := T.counters.count .queryLocked, queries := T.queries.add (.locked, none) } :=
  { h with
    queries := h.queries.add _
    unfinished := fun row hrow hlocked => by
      rcases Register.mem_add hrow with hold | hnew
      · exact h.unfinished row hold hlocked
      · rw [hnew]
    locked := by
      have hlocked := h.locked
      have hcount := Register.count_add (r := T.queries) (p := (·.isLocked)) (.locked, none)
      simp only [Counters.count, hcount, UInt64.ofNat_add]
      change _ = _ + (_ + UInt64.ofNat 1)
      grind }

/-- A locked query is finished. -/
theorem finishes (h : T.Reconciled n) {id : Nat} {finishedAt : Option Nat}
    (hmem : (id, (.locked, finishedAt)) ∈ T.queries.rows) {e : Event} {state : QueryState}
    (he : e.Finishes state) (time : Nat) :
    Reconciled n
      { T with counters := T.counters.count e, queries := T.queries.put id (state, some time) } := by
  have hstate : QueryStanding.isLocked (state, some time) = false := by cases he <;> rfl
  have hlocked := h.locked
  rw [h.queries.count_put (p := (·.isLocked)) hmem rfl hstate, UInt64.ofNat_add] at hlocked
  have hunfinished : ∀ row ∈ (T.queries.put id (state, some time)).rows, row.2.isLocked = true →
      row.2.2 = none := by
    intro row hrow hrowLocked
    rcases Register.mem_put hrow with hold | hnew
    · exact h.unfinished row hold hrowLocked
    · rw [hnew, hstate] at hrowLocked
      cases hrowLocked
  cases he with
  | settled cost =>
    exact { h with
      queries := h.queries.put id _
      unfinished := hunfinished
      locked := by simp only [Counters.count]; grind }
  | aborted forced =>
    cases forced <;>
    exact { h with
      queries := h.queries.put id _
      unfinished := hunfinished
      locked := by simp only [Counters.count]; grind }

/-- Rows are forgotten, none of them an open session or a locked query. -/
theorem purges (h : T.Reconciled n) {p : QueryStanding → Bool} {q : Option Nat → Bool}
    (hp : ∀ state, p (state, none) = true) (hq : q none = true) :
    Reconciled n { T with queries := T.queries.keep p, sessions := T.sessions.keep q } :=
  { h with
    queries := h.queries.keep p
    sessions := h.sessions.keep q
    unfinished := fun row hrow => h.unfinished row (List.mem_filter.1 hrow).1
    opened := by
      have hcount : (T.sessions.keep q).count (·.isNone) = T.sessions.count (·.isNone) := by
        refine Register.count_keep fun row _ hopen => ?_
        rw [Option.isNone_iff_eq_none.1 hopen, hq]
      dsimp only
      rw [hcount]
      exact h.opened
    locked := by
      have hcount : (T.queries.keep p).count (·.isLocked) = T.queries.count (·.isLocked) := by
        refine Register.count_keep fun row hrow hlocked => ?_
        have hunfinished := h.unfinished row hrow hlocked
        obtain ⟨id, state, finishedAt⟩ := row
        cases hunfinished
        exact hp state
      dsimp only
      rw [hcount]
      exact h.locked }

/-- A voucher is refused. -/
theorem refusesVoucher (h : T.Reconciled n) :
    Reconciled (n + ⟨1, 0⟩) { T with counters := T.counters.count .sessionRejected } :=
  { h with
    vouchers := by
      have hvouchers := h.vouchers
      change _ + 1 = UInt64.ofNat (n.vouchers + 1)
      rw [hvouchers, UInt64.ofNat_add]
      rfl }

/-- A query is refused. -/
theorem refusesQuery (h : T.Reconciled n) :
    Reconciled (n + ⟨0, 1⟩) { T with counters := T.counters.count .queryRejected } :=
  { h with
    refused := by
      have hrefused := h.refused
      change _ + 1 = UInt64.ofNat (n.queries + 1)
      rw [hrefused, UInt64.ofNat_add]
      rfl }

end Reconciled
end Tally
end VoucherGateway
