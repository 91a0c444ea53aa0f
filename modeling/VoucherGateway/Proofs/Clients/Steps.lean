import VoucherGateway.Proofs.Clients.Beside

/-!
# Steps on one client — what operations are built from

Each elementary step on a client, made by two gateways abreast, comes to the same outcome and leaves them
abreast: calls to the stores read and write under the client's name only, and what is looked up by its number
is the client's own.
-/

namespace VoucherGateway

variable {S : Scheme} {α β : Type}

theorem Action.within_bind {σ τ ε : Type} {get : τ → σ} {set : σ → τ → τ} (hget : ∀ s t, get (set s t) = s)
    (hset : ∀ s s' t, set s' (set s t) = set s' t) (act : Action σ ε α) (next : α → Action σ ε β) :
    Action.within get set (act >>= next) =
      Action.within get set act >>= fun a => Action.within get set (next a) := by
  funext t
  change Action.run (Action.within get set (act >>= next)) t =
    Action.run (Action.within get set act >>= fun a => Action.within get set (next a)) t
  rw [Action.run_within, Action.run_bind, Action.run_bind, Action.run_within]
  rcases Action.run act (get t) with ⟨e | a, s⟩
  · rfl
  · simp only [Action.run_within, hget, hset]

namespace Gateway

theorem onVouchers_bind (act : VoucherStore.Act S α) (next : α → VoucherStore.Act S β) :
    onVouchers (act >>= next) = onVouchers act >>= fun a => onVouchers (next a) := by
  unfold onVouchers
  refine Action.within_bind ?_ ?_ act next <;> intros <;> rfl

/-- A step on one of the two stores of running costs. -/
def onCosts (which : RunningCost) (act : CostBook → CostStore.Act S α) : Step S α :=
  match which with
  | .unmarked => onUnmarked act
  | .locked => onBalances act

theorem onCosts_bind (which : RunningCost) (act : CostBook → CostStore.Act S α)
    (next : CostBook → α → CostStore.Act S β) :
    onCosts which (fun book => act book >>= next book) =
      onCosts which act >>= fun a => onCosts which fun book => next book a := by
  cases which with
  | unmarked =>
    unfold onCosts onUnmarked
    refine Action.within_bind ?_ ?_ _ _ <;> intros <;> rfl
  | locked =>
    unfold onCosts onBalances
    refine Action.within_bind ?_ ?_ _ _ <;> intros <;> rfl

/-- The store of a running cost. -/
def costs (g : Gateway S) : RunningCost → CostStore S
  | .unmarked => g.unmarked
  | .locked => g.balances

end Gateway

namespace VoucherChain

variable {c : VoucherChain S} {v : Voucher S} {id : VoucherId S}

theorem plain_insert {e : Error} (h : c.insert v = .error e) : e.Plain := by
  unfold insert at h
  repeat' split at h
  all_goals cases h
  trivial

/-- A chain takes vouchers of its own client only. -/
theorem client_insert {r : Bool × VoucherChain S} {client : S.Party} (h : c.insert v = .ok r)
    (hv : v.client = client) (hc : ∀ x ∈ c.vouchers, x.client = client) :
    ∀ x ∈ r.2.vouchers, x.client = client := by
  have hnew : ∀ x ∈ c.vouchers ++ [v], x.client = client := by
    intro x hx
    rcases List.mem_append.1 hx with hx | hx
    · exact hc x hx
    · rw [List.mem_singleton.1 hx]
      exact hv
  unfold insert at h
  repeat' split at h
  all_goals cases h
  · exact hnew
  · exact hc
  · exact hnew

theorem plain_markSpent {e : Error} (h : c.markSpent id = .error e) : e.Plain := by
  unfold markSpent at h
  repeat' split at h
  all_goals cases h
  all_goals trivial

theorem vouchers_markSpent {d : VoucherChain S} (h : c.markSpent id = .ok d) : d.vouchers = c.vouchers := by
  unfold markSpent at h
  repeat' split at h
  all_goals cases h
  rfl

end VoucherChain

open Gateway

namespace Pairing

variable {σ : Pairing S} {early : Prop} {g g' : Gateway S}

/-- Steps that echo each other and leave the gateways abreast. -/
abbrev Echoes (σ : Pairing S) (early : Prop) (V : α → α → Prop) (step step' : Step S α) : Prop :=
  Action.Echo σ.numbers (σ.Abreast early) (σ.Abreast early) V step step'

/-- The query of a number given out before is the client's, on both sides. -/
structure OwnsQuery (σ : Pairing S) (id : QueryId) : Prop where
  left : σ.left.owners.query id = σ.client
  right : σ.right.owners.query (σ.numbers.query id) = σ.client
  issued_left : id.number < σ.left.ledger.queries.next
  issued_right : (σ.numbers.query id).number < σ.right.ledger.queries.next

/-- The session of a number given out before is the client's, on both sides. -/
structure OwnsSession (σ : Pairing S) (id : SessionId) : Prop where
  left : σ.left.owners.session id = σ.client
  right : σ.right.owners.session (σ.numbers.session id) = σ.client
  issued_left : id.number < σ.left.ledger.sessions.next
  issued_right : (σ.numbers.session id).number < σ.right.ledger.sessions.next

namespace Abreast

theorem amend {g₁ g₁' : Gateway S} {a a' : Amendment S} (h : σ.Abreast early g g')
    (halias : a.Alias σ.numbers a') (hfits : g.holdings.Fits σ.left.owners σ.client a)
    (hfits' : g'.holdings.Fits σ.right.owners σ.client a')
    (ha : early → g.holdings.Unmoving a ∧ g'.holdings.Unmoving a')
    (hg : g₁.holdings = g.holdings.amend σ.client a) (hg' : g₁'.holdings = g'.holdings.amend σ.client a')
    (hw : g₁.world = g.world) (hw' : g₁'.world = g'.world) : σ.Abreast early g₁ g₁' := by
  unfold Abreast
  rw [hg, hg', hw, hw']
  exact Level.amend h halias hfits hfits' ha

theorem late (h : σ.Abreast early g g') : σ.Abreast False g g' := Level.late h

theorem now (h : σ.Abreast early g g') : g'.now = g.now := h.worlds.clock

theorem vendor (h : σ.Abreast early g g') : g'.vendor = g.vendor := congrArg (·.1) h.terms

theorem config (h : σ.Abreast early g g') : g'.config = g.config := congrArg (·.2.1) h.terms

theorem chain (h : σ.Abreast early g g') (vendor : S.Party) :
    g'.vouchers.chain σ.client vendor = g.vouchers.chain σ.client vendor :=
  congrArg (Folio.chain · vendor) h.folio

theorem cost (h : σ.Abreast early g g') (which : RunningCost) :
    (g'.costs which).cost σ.client = (g.costs which).cost σ.client := by
  cases which with
  | unmarked => exact congrArg Folio.unmarked h.folio
  | locked => exact congrArg Folio.locked h.folio

theorem haltReason? (h : σ.Abreast early g g') :
    g'.gate.haltReason? σ.client = g.gate.haltReason? σ.client :=
  congrArg Folio.halted h.folio

theorem pending (h : σ.Abreast early g g') :
    g'.interrupted.get? σ.client = (g.interrupted.get? σ.client).map (·.rename σ.numbers) :=
  congrArg Folio.pending h.folio

theorem settlement (h : σ.Abreast early g g') :
    g'.settlement.of σ.client = g.settlement.of σ.client :=
  congrArg Folio.settlement h.folio

theorem find?_query (h : σ.Abreast early g g') {id : QueryId} (hid : σ.OwnsQuery id) :
    g'.queries.find? (σ.numbers.query id) = (g.queries.find? id).map (·.rename σ.numbers) := by
  refine h.matched.find?_query ?_ ?_
  · rintro q hq rfl
    rw [← h.left.tidy.queries q hq, hid.left]
    exact σ.watches
  · intro q hq hqid
    rw [← h.right.tidy.queries q hq, hqid, hid.right]
    exact σ.watches

theorem find?_session (h : σ.Abreast early g g') {id : SessionId} (hid : σ.OwnsSession id) :
    g'.sessions.find? (σ.numbers.session id) = (g.sessions.find? id).map (·.rename σ.numbers) := by
  refine h.matched.find?_session ?_ ?_
  · rintro s hs rfl
    rw [← h.left.tidy.sessions s hs, hid.left]
    exact σ.watches
  · intro s hs hsid
    rw [← h.right.tidy.sessions s hs, hsid, hid.right]
    exact σ.watches

/-- A step that does nothing but find out, in a world that may be told of it. -/
theorem heed {f : World S → Except Error α × World S} (hf : World.Heeds f)
    (hplain : ∀ w e, (f w).1 = .error e → e.Plain) (h : σ.Abreast early g g') {r r' : Except Error α × Gateway S}
    (hr : r.1 = (f g.world).1 ∧ r.2.holdings = g.holdings ∧ r.2.world = (f g.world).2)
    (hr' : r'.1 = (f g'.world).1 ∧ r'.2.holdings = g'.holdings ∧ r'.2.world = (f g'.world).2) :
    SameOutcome σ.numbers Eq r.1 r'.1 ∧ σ.Abreast early r.2 r'.2 := by
  obtain ⟨hout, hlike⟩ := hf.like h.worlds
  rw [hr.1, hr'.1, hout]
  refine ⟨.of_plain (fun _ _ => rfl) (hplain g.world), ?_⟩
  unfold Abreast
  rw [hr.2.1, hr.2.2, hr'.2.1, hr'.2.2]
  exact { h with
    left := h.left.inWorld fun hq => hf.twins hq
    right := h.right.inWorld fun hq => hf.twins hq
    worlds := hlike }

end Abreast

/-- A step that only reads. -/
theorem echoes_view {V : α → α → Prop} {step step' : Step S α} {r r' : Gateway S → Except Error α}
    (hrun : ∀ g, step.run g = (r g, g)) (hrun' : ∀ g, step'.run g = (r' g, g))
    (h : ∀ g g', σ.Abreast early g g' → SameOutcome σ.numbers V (r g) (r' g')) : σ.Echoes early V step step' := by
  intro g g' hg
  rw [hrun, hrun']
  exact ⟨h g g' hg, hg⟩

/-! ## The voucher store -/

theorem echoes_callVouchers (kind : VoucherCall) :
    σ.Echoes early Eq (onVouchers (VoucherStore.check kind)) (onVouchers (VoucherStore.check kind)) := by
  intro g g' h
  refine h.heed (World.heeds_callVouchers kind) ?_ ⟨rfl, rfl, rfl⟩ ⟨rfl, rfl, rfl⟩
  intro w e he
  obtain ⟨detail, rfl⟩ := Outage.check_error he
  trivial

theorem echoes_latestNonce (vendor : S.Party) :
    σ.Echoes early Eq (onVouchers (VoucherStore.latestNonce σ.client vendor))
      (onVouchers (VoucherStore.latestNonce σ.client vendor)) := by
  unfold VoucherStore.latestNonce
  rw [onVouchers_bind]
  refine (echoes_callVouchers _).bind fun _ _ _ => echoes_view (fun _ => rfl) (fun _ => rfl) fun g g' h => ?_
  have hmisreported : g'.vouchers.misreported = g.vouchers.misreported := congrArg (·.2.2) h.terms
  exact .ok (by rw [h.chain, hmisreported])

theorem echoes_unspent (vendor : S.Party) :
    σ.Echoes early (fun vs vs' => vs' = vs ∧ ∀ v ∈ vs, v.client = σ.client)
      (onVouchers (VoucherStore.unspent σ.client vendor)) (onVouchers (VoucherStore.unspent σ.client vendor)) := by
  unfold VoucherStore.unspent
  rw [onVouchers_bind]
  refine (echoes_callVouchers _).bind fun _ _ _ => echoes_view (fun _ => rfl) (fun _ => rfl) fun g g' h => ?_
  refine .ok ⟨by rw [h.chain], ?_⟩
  intro v hv
  exact h.left.tidy.filed σ.client vendor v (List.mem_filter.1 hv).1

theorem echoes_isSpent {id : VoucherId S} (hid : id.client = σ.client) :
    σ.Echoes early Eq (onVouchers (VoucherStore.isSpent id)) (onVouchers (VoucherStore.isSpent id)) := by
  unfold VoucherStore.isSpent
  rw [onVouchers_bind]
  refine (echoes_callVouchers _).bind fun _ _ _ => echoes_view (fun _ => rfl) (fun _ => rfl) fun g g' h => ?_
  exact .ok (by rw [hid, h.chain])

/-- Replacing a chain by one that holds vouchers of the client only. -/
theorem Abreast.setChain (h : σ.Abreast early g g') (vendor : S.Party) {c : VoucherChain S}
    (hc : ∀ v ∈ c.vouchers, v.client = σ.client) :
    σ.Abreast early { g with vouchers := g.vouchers.setChain σ.client vendor c }
      { g' with vouchers := g'.vouchers.setChain σ.client vendor c } :=
  h.amend (.chain vendor c) hc hc (fun _ => ⟨trivial, trivial⟩) rfl rfl rfl rfl

theorem echoes_insert {v : Voucher S} (hv : v.client = σ.client) :
    σ.Echoes early Eq (onVouchers (VoucherStore.insert v)) (onVouchers (VoucherStore.insert v)) := by
  unfold VoucherStore.insert
  rw [onVouchers_bind]
  refine (echoes_callVouchers _).bind fun _ _ _ g g' h => ?_
  -- both chains are the same, so the voucher is taken, known, or turned down on both sides
  unfold onVouchers
  rw [Action.run_within, Action.run_within, Action.run_get_bind, Action.run_get_bind, Action.run_bind,
    Action.run_bind, Action.run_give, Action.run_give]
  rw [hv, h.chain]
  have hfiled := h.left.tidy.filed σ.client v.vendor
  cases hc : (g.vouchers.chain σ.client v.vendor).insert v with
  | error e => exact ⟨.error (.plain (VoucherChain.plain_insert hc)), h⟩
  | ok r => exact ⟨.ok rfl, h.setChain v.vendor (VoucherChain.client_insert hc hv hfiled)⟩

theorem echoes_markSpent {id : VoucherId S} (hid : id.client = σ.client) :
    σ.Echoes early (fun _ _ => True) (onVouchers (VoucherStore.markSpent id))
      (onVouchers (VoucherStore.markSpent id)) := by
  unfold VoucherStore.markSpent
  rw [onVouchers_bind]
  refine ((echoes_callVouchers _).mono (fun _ _ h => h) fun _ _ _ => trivial).bind fun _ _ _ g g' h => ?_
  unfold onVouchers
  rw [Action.run_within, Action.run_within, Action.run_get_bind, Action.run_get_bind, Action.run_bind,
    Action.run_bind, Action.run_give, Action.run_give]
  rw [hid, h.chain]
  have hfiled := h.left.tidy.filed σ.client id.vendor
  cases hc : (g.vouchers.chain σ.client id.vendor).markSpent id with
  | error e => exact ⟨.error (.plain (VoucherChain.plain_markSpent hc)), h⟩
  | ok c =>
    have hsame := VoucherChain.vouchers_markSpent hc
    exact ⟨.ok trivial, h.setChain id.vendor (hsame ▸ hfiled)⟩

/-! ## The stores of running costs -/

theorem echoes_callCosts (which : RunningCost) (kind : CostCall) :
    σ.Echoes early Eq (onCosts which fun book => CostStore.check book kind)
      (onCosts which fun book => CostStore.check book kind) := by
  intro g g' h
  have hplain : ∀ (w : World S) (e : Error), (w.callCosts which kind).1 = .error e → e.Plain := by
    intro w e he
    cases which <;>
    · obtain ⟨detail, rfl⟩ := Outage.check_error he
      trivial
  cases which <;> exact h.heed (World.heeds_callCosts _ kind) hplain ⟨rfl, rfl, rfl⟩ ⟨rfl, rfl, rfl⟩

theorem echoes_readCost (which : RunningCost) :
    σ.Echoes early Eq (onCosts which fun book => CostStore.read book σ.client)
      (onCosts which fun book => CostStore.read book σ.client) := by
  unfold CostStore.read
  rw [onCosts_bind]
  refine (echoes_callCosts which _).bind fun _ _ _ => ?_
  have hrun : ∀ g : Gateway S, (onCosts which fun _ => Action.view (·.cost σ.client)).run g =
      (.ok ((g.costs which).cost σ.client), g) := fun g => by cases which <;> rfl
  exact echoes_view hrun hrun fun g g' h => .ok (h.cost which).symm

/-- A cost is replaced by what a computation makes of it, if there is a result. -/
theorem echoes_recompute (which : RunningCost) (f : Atoms → Option Atoms) (err : CostBook → Atoms → Error)
    (hplain : ∀ atoms, (err .unmarked atoms).Plain ∧ (err .balances atoms).Plain) :
    σ.Echoes early Eq
      (onCosts which fun book => do
        let s ← get
        match f (s.cost σ.client) with
        | some atoms =>
          set (s.setCost σ.client atoms)
          pure atoms
        | none => throw (err book (s.cost σ.client)))
      (onCosts which fun book => do
        let s ← get
        match f (s.cost σ.client) with
        | some atoms =>
          set (s.setCost σ.client atoms)
          pure atoms
        | none => throw (err book (s.cost σ.client))) := by
  intro g g' h
  have hcost := h.cost which
  cases which with
  | unmarked =>
    change g'.unmarked.cost σ.client = g.unmarked.cost σ.client at hcost
    simp only [onCosts, onUnmarked, Action.run_within, Action.run_get_bind, hcost]
    cases f (g.unmarked.cost σ.client) with
    | none => exact ⟨.error (.plain (hplain _).1), h⟩
    | some atoms =>
      exact ⟨.ok rfl, h.amend (.cost .unmarked atoms) trivial trivial (fun _ => ⟨trivial, trivial⟩) rfl rfl rfl rfl⟩
  | locked =>
    change g'.balances.cost σ.client = g.balances.cost σ.client at hcost
    simp only [onCosts, onBalances, Action.run_within, Action.run_get_bind, hcost]
    cases f (g.balances.cost σ.client) with
    | none => exact ⟨.error (.plain (hplain _).2), h⟩
    | some atoms =>
      exact ⟨.ok rfl, h.amend (.cost .locked atoms) trivial trivial (fun _ => ⟨trivial, trivial⟩) rfl rfl rfl rfl⟩

theorem echoes_addCost (which : RunningCost) (atoms : Atoms) :
    σ.Echoes early Eq (onCosts which fun book => CostStore.add book σ.client atoms)
      (onCosts which fun book => CostStore.add book σ.client atoms) := by
  unfold CostStore.add
  rw [onCosts_bind]
  exact (echoes_callCosts which _).bind fun _ _ _ =>
    echoes_recompute which (Atoms.add? · atoms) (fun book current => .violation (.overflow book.cost _ current atoms))
      fun _ => ⟨trivial, trivial⟩

theorem echoes_subtractCost (which : RunningCost) (atoms : Atoms) :
    σ.Echoes early Eq (onCosts which fun book => CostStore.subtract book σ.client atoms)
      (onCosts which fun book => CostStore.subtract book σ.client atoms) := by
  unfold CostStore.subtract
  rw [onCosts_bind]
  exact (echoes_callCosts which _).bind fun _ _ _ =>
    echoes_recompute which (Atoms.sub? · atoms) (fun book current => .violation (book.negative _ current atoms))
      fun _ => ⟨trivial, trivial⟩

/-! ## Queries and sessions -/

/-- A change that neither renames a query, nor moves it, nor writes its receipt. -/
structure Minor (f : Query S → Query S) : Prop where
  id : ∀ q, (f q).id = q.id
  client : ∀ q, (f q).client = q.client
  session : ∀ q, (f q).session = q.session
  state : ∀ q, (f q).state = q.state
  receipt : ∀ q, (f q).receipt = q.receipt
  rename : ∀ ρ q, f (q.rename ρ) = (f q).rename ρ

theorem Minor.regular {f : Query S → Query S} (hf : Minor f) {q : Query S} (h : q.Regular) : (f q).Regular where
  state := by
    rw [hf.state, hf.receipt]
    exact h.state
  receipt := by
    rw [hf.receipt, hf.id, hf.session]
    exact h.receipt

/-- Nothing has happened to the query of a number that would keep it from ending. -/
def Awaits (σ : Pairing S) (id : QueryId) : Prop :=
  ∀ q ∈ σ.left.ledger.queries.rows, q.id = id → q.state = .locked

/-- A query that was looked up by its number. -/
structure Found (σ : Pairing S) (id : QueryId) (q q' : Query S) : Prop where
  renamed : q' = q.rename σ.numbers
  number : q.id = id
  client : q.client = σ.client
  regular : q.Regular
  awaits : q.state = .locked → σ.Awaits id

theorem echoes_count (e : Event) : σ.Echoes early (fun _ _ => True) (count e) (count e) :=
  .update fun _ _ h => h

theorem echoes_updateQuery {id : QueryId} (hid : σ.OwnsQuery id) {f : Query S → Query S} (hf : Minor f) :
    σ.Echoes early (fun _ _ => True) (updateQuery id f) (updateQuery (σ.numbers.query id) f) := by
  have keeps : ∀ {L : Ledger S} {owners : Owners S}, L.Tidy owners → ∀ q ∈ L.queries.rows, (f q).id = q.id ∧
      (f q).client = q.client ∧ (f q).session = q.session ∧ (f q).Regular := fun ht q hq =>
    ⟨hf.id q, hf.client q, hf.session q, hf.regular (ht.regular q hq)⟩
  refine .update fun g g' h => ?_
  exact h.amend (.query id (hf.rename _)) ⟨hid.left, fun q hq _ => keeps h.left.tidy q hq⟩
    ⟨hid.right, fun q hq _ => keeps h.right.tidy q hq⟩
    (fun _ => ⟨fun q _ _ => ⟨hf.id q, hf.state q⟩, fun q _ _ => ⟨hf.id q, hf.state q⟩⟩) rfl rfl rfl rfl

/-- Before any query has moved, a query that awaited its end does so still. -/
theorem Abreast.locked (h : σ.Abreast True g g') {id : QueryId} (hawaits : σ.Awaits id) {q : Query S}
    (hq : q ∈ g.queries.rows) (hid : q.id = id) : q.state = .locked := by
  obtain ⟨q₀, hq₀, hid₀, hstate⟩ := (h.left.unmoved trivial).states q hq
  rw [← hstate]
  exact hawaits q₀ hq₀ (hid₀.trans hid)

/-- And one that does so now did so from the beginning. -/
theorem Abreast.awaits (h : σ.Abreast True g g') {q : Query S} (hq : q ∈ g.queries.rows)
    (hlocked : q.state = .locked) : σ.Awaits q.id := by
  obtain ⟨q₀, hq₀, hid₀, hstate⟩ := (h.left.unmoved trivial).states q hq
  -- only one query had the number at the beginning
  intro x hx hid
  rw [eq_of_mem_of_id_eq σ.left.tidy.numbered.nodup hx hq₀ (hid.trans hid₀.symm), hstate]
  exact hlocked

theorem Abreast.found (h : σ.Abreast True g g') {id : QueryId} (hid : σ.OwnsQuery id) {q : Query S}
    (hq : g.queries.find? id = some q) : σ.Found id q (q.rename σ.numbers) := by
  obtain ⟨hmem, rfl⟩ := QueryTable.mem_of_find? hq
  refine ⟨rfl, rfl, ?_, h.left.tidy.regular q hmem, h.awaits hmem⟩
  exact (h.left.tidy.queries q hmem).symm.trans hid.left

theorem echoes_findQuery {id : QueryId} (hid : σ.OwnsQuery id) :
    σ.Echoes True (σ.Found id) (findQuery id) (findQuery (σ.numbers.query id)) := by
  refine .get_bind fun g g' h => ?_
  rw [h.find?_query hid]
  cases hq : g.queries.find? id with
  | none => exact .throw (.unknownQuery id)
  | some q => exact .pure (h.found hid hq)

/-- The last change of a query, which moves it. -/
theorem Abreast.concludeQuery (h : σ.Abreast True g g') {id : QueryId} (hid : σ.OwnsQuery id) {q x x' : Query S}
    (hq : g.queries.find? id = some q) (hx' : x' = x.rename σ.numbers) (hxid : x.id = q.id)
    (hclient : x.client = q.client) (hsession : x.session = q.session) (hregular : x.Regular) :
    σ.Abreast False { g with queries := g.queries.update id fun _ => x }
      { g' with queries := g'.queries.update (σ.numbers.query id) fun _ => x' } := by
  have hq' : g'.queries.find? (σ.numbers.query id) = some (q.rename σ.numbers) := by
    rw [h.find?_query hid, hq, Option.map_some]
  obtain ⟨hmem, rfl⟩ := QueryTable.mem_of_find? hq
  obtain ⟨hmem', -⟩ := QueryTable.mem_of_find? hq'
  subst hx'
  have halias : Amendment.Alias σ.numbers (.query q.id fun _ => x)
      (.query (σ.numbers.query q.id) fun _ => x.rename σ.numbers) := .query q.id fun _ => rfl
  -- only one query has the number
  refine h.late.amend halias ⟨hid.left, ?_⟩ ⟨hid.right, ?_⟩
    False.elim rfl rfl rfl rfl
  · intro y hy hyid
    obtain rfl := eq_of_mem_of_id_eq h.left.tidy.numbered.nodup hy hmem hyid
    exact ⟨hxid, hclient, hsession, hregular⟩
  · intro y hy hyid
    obtain rfl := eq_of_mem_of_id_eq h.right.tidy.numbered.nodup hy hmem' hyid
    exact ⟨congrArg σ.numbers.query hxid, hclient, congrArg σ.numbers.session hsession, hregular.rename _⟩

/-- A session that was looked up by its number. -/
structure FoundSession (σ : Pairing S) (s s' : Session S) : Prop where
  renamed : s' = s.rename σ.numbers
  client : s.client = σ.client

theorem echoes_findOpenSession {id : SessionId} (hid : σ.OwnsSession id) :
    σ.Echoes early σ.FoundSession (findOpenSession id) (findOpenSession (σ.numbers.session id)) := by
  refine .get_bind fun g g' h => ?_
  rw [h.find?_session hid]
  cases hs : g.sessions.find? id with
  | none => exact .throw (.unknownSession id)
  | some s =>
    obtain ⟨hmem, rfl⟩ := SessionTable.mem_of_find? hs
    have hclient : s.client = σ.client := (h.left.tidy.sessions s hmem).symm.trans hid.left
    exact .ite (.pure ⟨rfl, hclient⟩) (.throw (.sessionClosed s.id))

theorem Abreast.updateSession (h : σ.Abreast early g g') {id : SessionId} (hid : σ.OwnsSession id)
    {f : Session S → Session S} (hf : ∀ s, (f s).id = s.id ∧ (f s).client = s.client)
    (hrename : ∀ s, f (s.rename σ.numbers) = (f s).rename σ.numbers) :
    σ.Abreast early { g with sessions := g.sessions.update id f }
      { g' with sessions := g'.sessions.update (σ.numbers.session id) f } :=
  h.amend (.session id hrename) ⟨hid.left, hf⟩ ⟨hid.right, hf⟩ (fun _ => ⟨trivial, trivial⟩) rfl rfl rfl rfl

/-! ## Broken-off spends and the settlement queue -/

/-- A spend of a voucher of the client, for one of its queries if for any. -/
structure Serves (σ : Pairing S) (p : PendingSpend S) : Prop where
  voucher : p.voucher.client = σ.client
  query : ∀ id, p.query = some id → σ.OwnsQuery id

theorem Abreast.setPending (h : σ.Abreast early g g') {p : Option (PendingSpend S)}
    (hp : ∀ p', p = some p' → σ.Serves p') :
    σ.Abreast early { g with interrupted := g.interrupted.assign σ.client p }
      { g' with interrupted := g'.interrupted.assign σ.client (p.map (·.rename σ.numbers)) } := by
  refine h.amend (.pending p) ?_ ?_ (fun _ => ⟨trivial, trivial⟩) rfl rfl rfl rfl
  · intro p' hp'
    refine ⟨(hp p' hp').voucher, fun id hid => ?_⟩
    have howns := (hp p' hp').query id hid
    exact ⟨Nat.lt_of_lt_of_le howns.issued_left h.left.queries, howns.left⟩
  · intro p'' hp''
    obtain ⟨p', hp', rfl⟩ := Option.map_eq_some_iff.1 hp''
    refine ⟨(hp p' hp').voucher, fun id hid => ?_⟩
    obtain ⟨id', hid', rfl⟩ := Option.map_eq_some_iff.1 hid
    have howns := (hp p' hp').query id' hid'
    exact ⟨Nat.lt_of_lt_of_le howns.issued_right h.right.queries, howns.right⟩

/-- A spend that broke off is the client's own. -/
theorem Abreast.serves (h : σ.Abreast True g g') {p : PendingSpend S}
    (hp : g.interrupted.get? σ.client = some p) : σ.Serves p := by
  have hp' : g'.interrupted.get? σ.client = some (p.rename σ.numbers) := by rw [h.pending, hp, Option.map_some]
  obtain ⟨hv, hq⟩ := h.left.tidy.pending σ.client p hp
  obtain ⟨-, hq'⟩ := h.right.tidy.pending σ.client _ hp'
  refine ⟨hv, ?_⟩
  intro id hid
  have hid' : (p.rename σ.numbers).query = some (σ.numbers.query id) := by
    unfold PendingSpend.rename
    rw [hid]
    rfl
  obtain ⟨hbelow, howner⟩ := hq id hid
  obtain ⟨hbelow', howner'⟩ := hq' _ hid'
  exact ⟨howner, howner', (h.left.unmoved trivial).queries ▸ hbelow, (h.right.unmoved trivial).queries ▸ hbelow'⟩

theorem Abreast.putSettlement (h : σ.Abreast early g g') (c : ClientSettlement S) :
    σ.Abreast early { g with settlement := g.settlement.put σ.client c }
      { g' with settlement := g'.settlement.put σ.client c } :=
  h.amend (.settlement c) trivial trivial (fun _ => ⟨trivial, trivial⟩) rfl rfl rfl rfl

theorem Abreast.setHalt (h : σ.Abreast early g g') (reason : Option String) :
    σ.Abreast early { g with gate := { g.gate with halted := g.gate.halted.assign σ.client reason } }
      { g' with gate := { g'.gate with halted := g'.gate.halted.assign σ.client reason } } :=
  h.amend (.halted reason) trivial trivial (fun _ => ⟨trivial, trivial⟩) rfl rfl rfl rfl

/-! ## The gate and the chain -/

/-- Operations that echo each other and leave the gateways abreast. -/
abbrev EchoesOp (σ : Pairing S) (early : Prop) (V : α → α → Prop) (op op' : Op S α) : Prop :=
  Op.Echo σ.numbers (σ.Abreast early) (σ.Abreast early) V op op'

theorem echoes_passGate : σ.Echoes early (fun _ _ => True) (passGate σ.client) (passGate σ.client) := by
  refine .get_bind fun g g' h => ?_
  unfold Gate.pass
  rw [h.haltReason?]
  cases g.gate.haltReason? σ.client with
  | none => exact .set h
  | some reason => exact .throw (.plain trivial)

theorem echoes_enter : σ.EchoesOp early (fun _ _ => True) (enter σ.client) (enter σ.client) := by
  intro g g' h
  rw [Op.run_enter, Op.run_enter]
  exact echoes_passGate g g' h

theorem echoes_readChain (vendor : S.Party) :
    σ.EchoesOp early Eq (readChain σ.client vendor) (readChain σ.client vendor) := by
  intro g g' h
  rw [Op.run_readChain, Op.run_readChain]
  refine h.heed (World.heeds_readChain σ.client vendor) ?_ ⟨rfl, rfl, rfl⟩ ⟨rfl, rfl, rfl⟩
  intro w e he
  unfold World.readChain at he
  dsimp only at he
  rcases hr : ((ChainReader.read σ.client vendor).run ChainReader.elapse w.chain).1 with e' | a
  · rw [hr] at he
    cases he
    trivial
  · rw [hr] at he
    cases he

theorem echoes_guarding {R : Gateway S → Gateway S → Prop} {V : α → α → Prop} {op op' : Op S α}
    (h : Op.Echo σ.numbers R (σ.Abreast early) V op op') :
    Op.Echo σ.numbers R (σ.Abreast early) V (guarding σ.client op) (guarding σ.client op') :=
  h.guarding fun e _ _ hg => hg.setHalt (some e.message)

end Pairing
end VoucherGateway
