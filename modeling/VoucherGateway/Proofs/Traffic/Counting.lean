import VoucherGateway.Proofs.Traffic.Stretches

/-!
# Counting — what operations do to the books

Most steps of an operation are idle.  The others change a counter and a table together: what they do to a tally
is said here for each of them, and with that for each operation.

Main statement: every stretch of a call keeps the books (`tallies_op`).
-/

namespace VoucherGateway

open VoucherGateway.Action

variable {S : Scheme} {α β : Type} {T : Tally}

/-! ## Moves of a query -/

namespace Query

theorem moveTo_error {q : Query S} {state : QueryState} {now : Nat} {e : Error}
    (h : q.moveTo state now = .error e) : ∃ cause, e = .violation cause := by
  unfold moveTo at h
  split at h <;> cases h
  exact ⟨_, rfl⟩

theorem moveTo_final {q q' : Query S} {state : QueryState} {now : Nat}
    (h : q.moveTo state now = .ok q') (hfinal : state.isFinal = true) :
    q.state.canMoveTo state = true ∧ q'.row = (q.id.number, (state, some now)) := by
  unfold moveTo at h
  rw [if_pos hfinal] at h
  split at h <;> cases h
  next hcan => exact ⟨hcan, rfl⟩

end Query

namespace Gateway

variable {cost : Error → Refusals} {g : Gateway S}

/-! ## Steps -/

theorem tally_count (g : Gateway S) (e : Event) :
    Gateway.tally { g with metrics := g.metrics.count e } =
      { g.tally with counters := g.tally.counters.count e } := by
  simp only [tally, Metrics.counters_count]

theorem tallies_openSession (client : S.Party) (nonce : UInt64) (g : Gateway S) :
    Tallies cost g.tally ((openSession client nonce).run g) := by
  rw [run_openSession]
  intro m h
  simp only [tally, Metrics.counters_count, SessionTable.register_openSession]
  exact h.opens

/-- An open session is closed once. -/
theorem counted_close {id : SessionId} {s : Session S} (hs : g.sessions.find? id = some s)
    (hopen : s.isOpen = true) (time : Nat) :
    g.tally.Counted 0 (tally
      { g with sessions := g.sessions.close id time, metrics := g.metrics.count .sessionClosed }) := by
  intro m h
  have hrow := SessionTable.row_mem_of_find? hs
  rw [Option.isNone_iff_eq_none.1 hopen] at hrow
  simp only [tally, Metrics.counters_count, SessionTable.register_close]
  exact h.closes hrow time

theorem tallies_closeSession (hcost : ∀ e, Error.NoRefusal e → cost e = 0) (id : SessionId) (g : Gateway S) :
    Tallies cost g.tally ((closeSession id).run g) := by
  unfold closeSession
  rw [run_get_bind]
  cases hs : g.sessions.find? id with
  | none =>
    change g.tally.Counted (cost _) g.tally
    exact counted_of_noRefusal hcost rfl _
  | some s =>
    dsimp only
    cases hopen : s.isOpen with
    | false => exact .refl _
    | true => exact counted_close hs hopen g.now

/-- A voucher that is turned down is counted. -/
theorem tallies_reject (hcost : ∀ reason, cost (.rejected reason) = ⟨1, 0⟩) (reason : Rejection)
    (g : Gateway S) : Tallies cost g.tally ((reject reason : Step S α).run g) := by
  change g.tally.Counted (cost (.rejected reason)) (tally { g with metrics := g.metrics.count .sessionRejected })
  rw [hcost, tally_count]
  exact fun m h => h.refusesVoucher

theorem tallies_recordVoucher (hcost : ∀ e, Error.NoRefusal e → cost e = 0)
    (hrejected : ∀ reason, cost (.rejected reason) = ⟨1, 0⟩) (v : Voucher S) (prior : UInt64)
    (chain : ChainSnapshot) (g : Gateway S) : Tallies cost g.tally ((recordVoucher v prior chain).run g) := by
  unfold recordVoucher
  rw [run_get_bind]
  refine tallies_bind hcost (fun T => idle_validate _ v _ prior chain) (fun verdict g => ?_) g
  cases verdict with
  | rejected reason => exact tallies_reject hrejected reason g
  | accepted =>
    refine tallies_bind hcost (fun T => idle_readUnmarked v.client) (fun arrears g => ?_) g
    refine tallies_bind hcost (fun T => idle_onVouchers (VoucherStore.willing_insert v)) (fun added g => ?_) g
    split
    · exact tallies_reject hrejected _ g
    · refine tallies_of_idle hcost (fun T => ?_) g
      exact .ite ((idle_absorbArrears v.client arrears).bind fun _ => .pure _) (.pure _)

/-! ### Queries -/

/-- A query is locked under the number that was used up for it. -/
theorem counted_insert {g : Gateway S} (hg : g.tally = { T with queries := T.queries.skip }) {q : Query S}
    (hq : q.row = (T.queries.next, (.locked, none))) :
    T.Counted 0 (tally { g with queries := g.queries.insert q, metrics := g.metrics.count .queryLocked }) := by
  intro m h
  have hcounters : g.metrics.counters = T.counters := congrArg Tally.counters hg
  have hqueries : g.queries.register = T.queries.skip := congrArg Tally.queries hg
  have hsessions : g.sessions.register = T.sessions := congrArg Tally.sessions hg
  have hinsert : (g.queries.insert q).register = T.queries.add (.locked, none) := by
    rw [QueryTable.register_insert, hqueries, hq]
    rfl
  simp only [tally, Metrics.counters_count, hcounters, hsessions, hinsert]
  exact h.locks

theorem tallies_lockEstimate (hcost : ∀ e, Error.NoRefusal e → cost e = 0)
    (hrejected : cost (.rejected .notSubscribed) = ⟨0, 1⟩)
    (hcredit : ∀ requested available, cost (.insufficientCredit requested available) = ⟨0, 1⟩)
    (session : SessionId) (client : S.Party) (estimated : Atoms) (chain : ChainSnapshot) (g : Gateway S) :
    Tallies cost g.tally ((lockEstimate session client estimated chain).run g) := by
  have refuse : ∀ (e : Error) (g : Gateway S), cost e = ⟨0, 1⟩ →
      Tallies (α := QueryId) cost g.tally (.error e, { g with metrics := g.metrics.count .queryRejected }) := by
    intro e g he
    change g.tally.Counted (cost e) (Gateway.tally _)
    rw [he, tally_count]
    exact fun m h => h.refusesQuery
  unfold lockEstimate
  split
  · exact refuse _ g hrejected
  · rw [run_get_bind]
    refine tallies_bind hcost (fun T => idle_creditAt client _ chain) (fun credit g => ?_) g
    split
    · exact refuse _ g (hcredit _ _)
    · rw [run_get_bind]
      -- the number is used up whether the estimate is locked or not
      dsimp only [QueryTable.allocate]
      rw [run_set_bind]
      refine ends_bind ((idle_onBalances (CostStore.willing_add _ _ _) _ rfl).mono_error fun e g' hsame => ?_)
        fun _ g' hsame => ?_
      · rw [hcost e hsame.2, hsame.1]
        exact fun m h => h.skips
      · change g.tally.Counted 0 (Gateway.tally { g' with
          queries := g'.queries.insert _, metrics := g'.metrics.count .queryLocked })
        exact counted_insert hsame rfl

/-- A query is rewritten that stands where it stood. -/
theorem counted_rewrite {id : QueryId} {q q' : Query S} (hq : g.queries.find? id = some q)
    (hq' : q'.row = (id.number, q.standing)) :
    g.tally.Counted 0 (tally { g with queries := g.queries.update id fun _ => q' }) := by
  intro m h
  have hregister : (g.queries.update id fun _ => q').register = g.queries.register := by
    rw [g.queries.register_update fun _ _ => hq']
    exact h.queries.put_same (QueryTable.row_mem_of_find? hq)
  simp only [tally, hregister]
  exact h

/-- A locked query is finished once. -/
theorem counted_finish {id : QueryId} {q q' : Query S} (hq : g.queries.find? id = some q) {e : Event}
    {state : QueryState} (he : e.Finishes state) {time : Nat} (hmove : q.state.canMoveTo state = true)
    (hq' : q'.row = (id.number, (state, some time))) :
    g.tally.Counted 0 (tally
      { g with queries := g.queries.update id fun _ => q', metrics := g.metrics.count e }) := by
  intro m h
  have hrow := QueryTable.row_mem_of_find? hq
  have hlocked : q.state = .locked := by
    cases he <;> cases hstate : q.state <;> rw [hstate] at hmove <;> first | rfl | cases hmove
  simp only [tally, Metrics.counters_count, g.queries.register_update fun _ _ => hq']
  rw [Query.standing, hlocked] at hrow
  exact h.finishes hrow he time

/-- A query of a number was moved to a final state, which remains to be counted. -/
def Moved (id : QueryId) (state : QueryState) (g g' : Gateway S) : Prop :=
  ∃ q q' : Query S, ∃ time, g.queries.find? id = some q ∧ q.state.canMoveTo state = true ∧
    q'.row = (id.number, (state, some time)) ∧ g' = { g with queries := g.queries.update id fun _ => q' }

theorem Moved.counted {id : QueryId} {state : QueryState} {g' : Gateway S} (h : Moved id state g g') {e : Event}
    (he : e.Finishes state) : g.tally.Counted 0 (tally { g' with metrics := g'.metrics.count e }) := by
  obtain ⟨q, q', time, hq, hmove, hq', rfl⟩ := h
  exact counted_finish hq he hmove hq'

theorem ends_find (id : QueryId) (g : Gateway S) :
    Ends (fun q g' => g' = g ∧ g.queries.find? id = some q) (fun e g' => g' = g ∧ Error.NoRefusal e)
      (run (findQuery id) g) := by
  unfold findQuery
  rw [run_get_bind]
  cases hq : g.queries.find? id with
  | some q => exact ⟨rfl, rfl⟩
  | none => exact ⟨rfl, rfl⟩

theorem moved_issueReceipt (id : QueryId) (actual : Atoms) (partlyUsed : Option (VoucherId S))
    (credit : CreditState) (g : Gateway S) :
    Ends (fun _ g' => Moved id .settled g g') (fun e g' => g' = g ∧ Error.NoRefusal e)
      (run (issueReceipt id actual partlyUsed credit) g) := by
  unfold issueReceipt
  rw [run_get_bind]
  refine ends_bind (ends_find id g) fun q g' hfound => ?_
  rw [hfound.1]
  cases hmove : q.moveTo .settled g.now with
  | error e =>
    obtain ⟨cause, rfl⟩ := Query.moveTo_error hmove
    change g = g ∧ Error.NoRefusal (.violation cause)
    exact ⟨rfl, rfl⟩
  | ok settled =>
    obtain ⟨hcan, hrow⟩ := Query.moveTo_final hmove rfl
    have hid : q.id = id := (QueryTable.mem_of_find? hfound.2).2
    change Moved id .settled g
      { g with queries := g.queries.update id fun _ => { settled with receipt := some _ } }
    exact ⟨q, _, _, hfound.2, hcan, hid ▸ hrow, rfl⟩

theorem tallies_finishSettling (hcost : ∀ e, Error.NoRefusal e → cost e = 0) (q : Query S) (usage : Usage)
    (g : Gateway S) : Tallies cost g.tally (run (finishSettling q usage) g) := by
  unfold finishSettling
  refine tallies_bind hcost (fun T => idle_fixCost q usage) (fun actual g => ?_) g
  refine tallies_bind hcost (fun T => idle_releaseEstimate q) (fun _ g => ?_) g
  refine tallies_bind hcost (fun T => idle_charge q actual) (fun unmarked g => ?_) g
  refine tallies_bind hcost (fun T => idle_absorb q.client unmarked (some q.id)) (fun _ g => ?_) g
  rw [run_get_bind]
  refine tallies_bind hcost (fun T => idle_creditState q.client _) (fun credit g => ?_) g
  have issue : ∀ (head : Option (HeadVoucher S)) (g : Gateway S), Tallies cost g.tally (run (do
      let receipt ← issueReceipt q.id actual (head.map (·.voucher.id)) credit
      report (.querySettled actual) receipt) g) := by
    intro head g
    refine ends_bind ((moved_issueReceipt _ _ _ _ g).mono_error fun e g' he => ?_) fun receipt g' hmoved => ?_
    · exact he.1 ▸ counted_of_noRefusal hcost he.2 _
    · rw [run_report]
      exact hmoved.counted (.settled actual)
  split
  · exact tallies_bind hcost (fun T => idle_headVoucher _ _) issue g
  · exact issue none g

theorem tallies_settleNow (hcost : ∀ e, Error.NoRefusal e → cost e = 0) (id : QueryId) (usage : Usage)
    (g : Gateway S) : Tallies cost g.tally (run (settleNow id usage) g) := by
  refine tallies_bind hcost (fun T => idle_findQuery id) (fun q g => ?_) g
  have finish := tallies_finishSettling hcost q usage
  split
  · exact .refl _
  · exact tallies_of_idle hcost (fun T => .throw rfl) g
  · exact finish g

/-! ### Aborts -/

theorem tallies_finishAborting (hcost : ∀ e, Error.NoRefusal e → cost e = 0) (q : Query S) (forced : Bool)
    (g : Gateway S) : Tallies cost g.tally (run (finishAborting q forced) g) := by
  unfold finishAborting
  refine tallies_bind hcost (fun T => idle_releaseEstimate q) (fun _ g => ?_) g
  rw [run_get_bind]
  refine ends_bind ((ends_find q.id g).mono_error fun e g' he => ?_) fun current g' hfound => ?_
  · exact he.1 ▸ counted_of_noRefusal hcost he.2 _
  · rw [hfound.1]
    dsimp only
    have hid : current.id = q.id := (QueryTable.mem_of_find? hfound.2).2
    cases hmove : Query.moveTo { current with forced := forced } .aborted g.now with
    | ok aborted =>
      obtain ⟨hcan, hrow⟩ := Query.moveTo_final hmove rfl
      have hmoved : Moved q.id .aborted g { g with queries := g.queries.update q.id fun _ => aborted } :=
        ⟨current, _, _, hfound.2, hcan, hid ▸ hrow, rfl⟩
      exact hmoved.counted (.aborted forced)
    | error e =>
      obtain ⟨cause, rfl⟩ := Query.moveTo_error hmove
      change g.tally.Counted (cost (.violation cause))
        (tally { g with queries := g.queries.update q.id fun _ => { current with forced := forced } })
      rw [hcost _ rfl]
      exact counted_rewrite hfound.2 (hid ▸ rfl)

theorem tallies_abortNow (hcost : ∀ e, Error.NoRefusal e → cost e = 0) (id : QueryId) (forced : Bool)
    (g : Gateway S) : Tallies cost g.tally (run (abortNow id forced) g) := by
  refine tallies_bind hcost (fun T => idle_findQuery id) (fun q g => ?_) g
  split
  · exact .refl _
  · exact tallies_of_idle hcost (fun T => .throw rfl) g
  · exact tallies_finishAborting hcost q forced g

/-! ## Operations -/

section Operations

variable (hcost : ∀ e, Error.NoRefusal e → cost e = 0)
include hcost

/-- An operation that is an idle step. -/
theorem perform_idle {act : Step S α} (h : ∀ T, Idle T act) : Op.Tallies cost (perform act) :=
  .perform (tallies_of_idle hcost h)

theorem tallies_enter (client : S.Party) : Op.Tallies cost (enter client) :=
  (perform_idle hcost fun _ => idle_refuseHalted client).bind fun _ =>
    .bind (.wait _) fun _ => perform_idle hcost fun _ => idle_passGate client

theorem tallies_readChain (client vendor : S.Party) : Op.Tallies cost (readChain client vendor) := by
  intro g
  have alone : Progress.Tallies (fun _ : String => 0) g.tally
      ((ChainReader.read client vendor g.chain).within (fun g => g.chain) (fun r g => { g with chain := r }) g) :=
    .within_part _ (fun _ _ => by rfl) (fun _ => rfl) _ g
  refine alone.andThen (fun _ _ => .refl _) fun detail g' T h => ?_
  change T.Counted (cost (.chainUnavailable detail)) g'.tally
  rw [hcost _ rfl]
  exact h

theorem tallies_settleQuery (id : QueryId) (usage : Usage) : Op.Tallies cost (settleQuery (S := S) id usage) :=
  (perform_idle hcost fun _ => idle_findQuery id).bind fun q => (tallies_enter hcost q.client).bind fun _ =>
    .guarding (.perform (tallies_settleNow hcost id usage))

theorem tallies_abort (id : QueryId) (forced : Bool) : Op.Tallies cost (abort (S := S) id forced) :=
  (perform_idle hcost fun _ => idle_findQuery id).bind fun q => (tallies_enter hcost q.client).bind fun _ =>
    .guarding (.perform (tallies_abortNow hcost id forced))

theorem tallies_acceptQuery (hrejected : cost (.rejected .notSubscribed) = ⟨0, 1⟩)
    (hcredit : ∀ requested available, cost (.insufficientCredit requested available) = ⟨0, 1⟩)
    (session : SessionId) (estimated : Atoms) : Op.Tallies cost (acceptQuery (S := S) session estimated) := by
  have hreserve : ∀ client, Op.Tallies cost (reserve (S := S) session client estimated) := fun client =>
    (perform_idle hcost fun _ => idle_resumeSpend client).bind fun _ => .get_bind fun g =>
      (Op.Tallies.bind (tallies_readChain hcost client _) fun chain =>
        .perform (tallies_lockEstimate hcost hrejected hcredit session client estimated chain)) g
  have hfind := perform_idle hcost fun _ => idle_findOpenSession (S := S) session
  refine hfind.bind fun s => (tallies_enter hcost s.client).bind fun _ => hfind.bind fun _ =>
    (Op.Tallies.guarding (hreserve s.client)).bind fun id => .get_bind fun g => ?_
  have hused := perform_idle hcost fun T => idle_updateSession (T := T) session
    (f := fun s : Session S => { s with lastActivity := g.now }) fun _ => rfl
  exact hused.bind (fun _ => .pure id) g

section Vouchers

variable (hrejected : ∀ reason, cost (.rejected reason) = ⟨1, 0⟩)
include hrejected

theorem tallies_acceptVoucher (v : Voucher S) : Op.Tallies cost (acceptVoucher v) :=
  (perform_idle hcost fun _ => idle_priorNonce v.client).bind fun prior => .get_bind fun g =>
    (Op.Tallies.bind (tallies_readChain hcost v.client _) fun chain =>
      .perform (tallies_recordVoucher hcost hrejected v prior chain)) g

theorem tallies_acceptSession (v : Voucher S) : Op.Tallies cost (acceptSession v) :=
  (tallies_enter hcost v.client).bind fun _ =>
    (Op.Tallies.guarding (tallies_acceptVoucher hcost hrejected v)).bind fun nonce =>
      .perform (tallies_openSession v.client nonce)

theorem tallies_topUp (id : SessionId) (v : Voucher S) : Op.Tallies cost (topUp id v) := by
  have hfind := perform_idle hcost fun _ => idle_findOpenSession (S := S) id
  refine hfind.bind fun session => ?_
  split
  · refine fun g => ?_
    change g.tally.Counted (cost (.unknownSession _)) g.tally
    exact counted_of_noRefusal hcost rfl _
  · refine (tallies_enter hcost session.client).bind fun _ => hfind.bind fun _ =>
      (Op.Tallies.guarding (tallies_acceptVoucher hcost hrejected v)).bind fun nonce => .get_bind fun g => ?_
    exact perform_idle hcost (fun _ => idle_updateSession id fun _ => by rfl) g

end Vouchers

end Operations

/-! ### Passes -/

theorem tallies_forceAbort (id : QueryId) : Op.Tallies cost (forceAbort (S := S) id) :=
  (Op.Tallies.attempt (tallies_abort (fun _ _ => rfl) id true)).bind fun _ => .pure _

theorem tallies_closeIdle (asOf : Nat) (id : SessionId) : Op.Tallies cost (closeIdle (S := S) asOf id) := by
  refine .get_bind fun g => ?_
  cases g.sessions.find? id with
  | none => exact .refl _
  | some s =>
    refine Op.Tallies.bind (.attempt (tallies_enter (fun _ _ => rfl) s.client)) (fun outcome => ?_) g
    cases outcome with
    | error e => exact .pure _
    | ok _ =>
      refine .get_bind fun g => .ite (fun hidle => ?_) fun _ => .refl _
      -- a session that is idle is open
      obtain ⟨s, hs, hquiet⟩ := (Option.any_eq_true _ _).1 (Bool.and_eq_true_iff.1 hidle).1
      exact counted_close hs (Bool.and_eq_true_iff.1 hquiet).1 asOf

theorem tallies_countSuccesses {ι : Type} {act : ι → Op S Bool} (h : ∀ i, Op.Tallies cost (act i))
    (items : List ι) : Op.Tallies cost (countSuccesses act items) := by
  induction items with
  | nil => exact .pure _
  | cons i rest ih => exact (h i).bind fun _ => ih.bind fun _ => .pure _

theorem tallies_purge (asOf : Nat) (g : Gateway S) : Tallies cost g.tally (run (purge asOf) g) := by
  intro m h
  change (tally { g with
    queries := g.queries.purge asOf g.config.engine.queryRetention
    sessions := g.sessions.purge asOf g.config.engine.queryRetention }).Reconciled m
  simp only [tally, QueryTable.register_purge, SessionTable.register_purge]
  exact h.purges (fun _ => rfl) rfl

theorem tallies_reap (asOf : Nat) : Op.Tallies cost (reap (S := S) asOf) := by
  refine .get_bind fun g => (tallies_countSuccesses tallies_forceAbort _).bind (fun aborted => ?_) g
  refine .get_bind fun g => (tallies_countSuccesses (tallies_closeIdle asOf) _).bind (fun closed => ?_) g
  refine .bind (.perform (tallies_purge asOf)) fun purged => ?_
  intro g m h
  change (tally { g with gate := g.gate.prune.2, metrics := g.metrics.flush }).Reconciled m
  simp only [tally, Metrics.counters_flush]
  exact h

end Gateway

/-! ## Calls -/

namespace Call

/-- Whether a call was the offer of a voucher, and the voucher was rejected. -/
def rejectsVoucher : Call S → Except Error (Reply S) → Bool
  | .acceptSession _, .error (.rejected _) | .topUp _ _, .error (.rejected _) => true
  | _, _ => false

/-- Whether a call was a new query, and was refused for want of credit or of a subscription. -/
def refusesQuery : Call S → Except Error (Reply S) → Bool
  | .acceptQuery _ _, .error (.insufficientCredit _ _)
  | .acceptQuery _ _, .error (.rejected .notSubscribed) => true
  | _, _ => false

/-- The refusals that the outcome of a call counts for. -/
def refusals (call : Call S) (outcome : Except Error (Reply S)) : Refusals :=
  ⟨(call.rejectsVoucher outcome).toNat, (call.refusesQuery outcome).toNat⟩

theorem refusals_of_noRefusal (call : Call S) {e : Error} (he : e.NoRefusal) : call.refusals (.error e) = 0 := by
  cases call <;> cases e <;> first | rfl | cases he

/-- Every stretch of a call keeps the books. -/
theorem tallies_op (call : Call S) : Op.Tallies (fun e => call.refusals (.error e)) call.op := by
  have hcost : ∀ e, Error.NoRefusal e → call.refusals (.error e) = 0 := fun _ => call.refusals_of_noRefusal
  cases call with
  | acceptSession v => exact (Gateway.tallies_acceptSession hcost (fun _ => rfl) v).map _
  | topUp id v => exact (Gateway.tallies_topUp hcost (fun _ => rfl) id v).map _
  | acceptQuery session estimated =>
    exact (Gateway.tallies_acceptQuery hcost rfl (fun _ _ => rfl) session estimated).map _
  | settleQuery id usage => exact (Gateway.tallies_settleQuery hcost id usage).map _
  | abortQuery id => exact (Gateway.tallies_abort hcost id false).map _
  | closeSession id => exact (Op.Tallies.perform (Gateway.tallies_closeSession hcost id)).map _
  | resumeClient client => exact (Gateway.perform_idle hcost fun _ => Gateway.idle_resumeClient client).map _
  | reap asOf => exact (Gateway.tallies_reap asOf).map _
  | beginBatch client => exact (Gateway.perform_idle hcost fun _ => Gateway.idle_onSettlement _).map _
  | completeBatch client reference => exact (Gateway.perform_idle hcost fun _ => Gateway.idle_onSettlement _).map _
  | failBatch client => exact (Gateway.perform_idle hcost fun _ => Gateway.idle_onSettlement _).map _

end Call
end VoucherGateway
