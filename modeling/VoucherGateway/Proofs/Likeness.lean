import VoucherGateway.Proofs.Ledger.Basic

/-!
# Likeness — gateways that no operation tells apart

No operation asks which locks have been made, how many vouchers were rejected, or what is in the counters'
file.  So two gateways that differ only in these come to the same outcomes, and go on differing only in these
(`Blind`): by as many rejections at the end as at the start.
-/

namespace VoucherGateway

variable {S : Scheme} {σ τ ε δ α β : Type}

/-! ## Actions that agree -/

namespace Action

/-- From related states two actions come to the same outcome and to related states. -/
def Agree (R : σ → σ → Prop) (act act' : Action σ ε α) : Prop :=
  ∀ s s', R s s' → (act'.run s').1 = (act.run s).1 ∧ R (act.run s).2 (act'.run s').2

namespace Agree

variable {R : σ → σ → Prop}

theorem pure (a : α) : Agree R (Pure.pure a : Action σ ε α) (Pure.pure a) := fun _ _ h => ⟨rfl, h⟩

theorem throw (e : ε) : Agree R (MonadExcept.throw e : Action σ ε α) (MonadExcept.throw e) :=
  fun _ _ h => ⟨rfl, h⟩

/-- Nothing comes after an error. -/
theorem throw_bind (e : ε) {next next' : α → Action σ ε β} :
    Agree R ((MonadExcept.throw e : Action σ ε α) >>= next) ((MonadExcept.throw e : Action σ ε α) >>= next') :=
  fun _ _ h => ⟨rfl, h⟩

theorem give (r : Except ε α) : Agree R (Action.give r) (Action.give r) := fun _ _ h => ⟨rfl, h⟩

theorem view {f : σ → α} (h : ∀ s s', R s s' → f s' = f s) :
    Agree R (Action.view f : Action σ ε α) (Action.view f) :=
  fun s s' hs => ⟨congrArg Except.ok (h s s' hs), hs⟩

theorem bind {act act' : Action σ ε α} {next next' : α → Action σ ε β} (h : Agree R act act')
    (hn : ∀ a, Agree R (next a) (next' a)) : Agree R (act >>= next) (act' >>= next') := by
  intro s s' hs
  obtain ⟨hout, hrel⟩ := h s s' hs
  rw [run_bind, run_bind]
  rcases hr : act.run s with ⟨e | a, t⟩ <;> rcases hr' : act'.run s' with ⟨e' | a', t'⟩ <;>
    rw [hr, hr'] at hout hrel <;> cases hout
  · exact ⟨rfl, hrel⟩
  · exact hn a t t' hrel

theorem get_bind {next next' : σ → Action σ ε β} (hn : ∀ s s', R s s' → Agree R (next s) (next' s')) :
    Agree R (get >>= next) (get >>= next') := fun s s' hs => hn s s' hs s s' hs

theorem set {t t' : σ} (h : R t t') :
    Agree R (MonadStateOf.set t : Action σ ε PUnit) (MonadStateOf.set t') := fun _ _ _ => ⟨rfl, h⟩

theorem update {f : σ → σ} (h : ∀ s s', R s s' → R (f s) (f s')) :
    Agree R (Action.update f : Action σ ε Unit) (Action.update f) := fun s s' hs => ⟨rfl, h s s' hs⟩

theorem ite {c : Prop} [Decidable c] {act act' other other' : Action σ ε α} (h : Agree R act act')
    (h' : Agree R other other') : Agree R (if c then act else other) (if c then act' else other') := by
  split
  · exact h
  · exact h'

theorem attempt {act act' : Action σ ε α} (h : Agree R act act') :
    Agree R (Action.attempt act : Action σ δ _) (Action.attempt act') := fun s s' hs =>
  ⟨congrArg Except.ok (h s s' hs).1, (h s s' hs).2⟩

/-- An action on a part of a state, if the part is the same in related states. -/
theorem within {T : τ → τ → Prop} {get : τ → σ} {set : σ → τ → τ} (act : Action σ ε α)
    (hget : ∀ t t', T t t' → get t' = get t) (hset : ∀ s t t', T t t' → T (set s t) (set s t')) :
    Agree T (Action.within get set act) (Action.within get set act) := by
  intro t t' ht
  rw [run_within, run_within, hget t t' ht]
  exact ⟨rfl, hset _ t t' ht⟩

end Agree
end Action

namespace Op

/-- The same of two operations that run alone. -/
def Agree (R : Gateway S → Gateway S → Prop) (op op' : Op S α) : Prop :=
  ∀ g g', R g g' → (op'.run g').1 = (op.run g).1 ∧ R (op.run g).2 (op'.run g').2

namespace Agree

variable {R : Gateway S → Gateway S → Prop}

theorem pure (a : α) : Agree R (Pure.pure a : Op S α) (Pure.pure a) := fun _ _ h => ⟨rfl, h⟩

/-- Nothing comes after an error. -/
theorem throw_bind (e : Error) {next next' : α → Op S β} :
    Agree R ((MonadExcept.throw e : Op S α) >>= next) ((MonadExcept.throw e : Op S α) >>= next') :=
  fun _ _ h => ⟨rfl, h⟩

theorem bind {op op' : Op S α} {next next' : α → Op S β} (h : Agree R op op')
    (hn : ∀ a, Agree R (next a) (next' a)) : Agree R (op >>= next) (op' >>= next') := by
  intro g g' hg
  obtain ⟨hout, hrel⟩ := h g g' hg
  rw [run_bind, run_bind]
  rcases hr : op.run g with ⟨e | a, k⟩ <;> rcases hr' : op'.run g' with ⟨e' | a', k'⟩ <;>
    rw [hr, hr'] at hout hrel <;> cases hout
  · exact ⟨rfl, hrel⟩
  · exact hn a k k' hrel

theorem get_bind {next next' : Gateway S → Op S β} (hn : ∀ g g', R g g' → Agree R (next g) (next' g')) :
    Agree R (get >>= next) (get >>= next') := fun g g' hg => hn g g' hg g g' hg

theorem set_bind {t t' : Gateway S} {next next' : PUnit → Op S β} (h : R t t')
    (hn : Agree R (next ⟨⟩) (next' ⟨⟩)) : Agree R (set t >>= next) (set t' >>= next') := fun _ _ _ => hn t t' h

theorem ite {c : Prop} [Decidable c] {op op' other other' : Op S α} (h : Agree R op op')
    (h' : Agree R other other') : Agree R (if c then op else other) (if c then op' else other') := by
  split
  · exact h
  · exact h'

theorem attempt {op op' : Op S α} (h : Agree R op op') :
    Agree R (Procedure.attempt op : Op S (Except Error α)) (Procedure.attempt op') := by
  intro g g' hg
  rw [run_attempt, run_attempt]
  exact ⟨congrArg Except.ok (h g g' hg).1, (h g g' hg).2⟩

theorem guarding {client : S.Party} {op op' : Op S α} (h : Agree R op op')
    (hhalt : ∀ e g g', R g g' → R (Gateway.haltFor client e g) (Gateway.haltFor client e g')) :
    Agree R (Gateway.guarding client op) (Gateway.guarding client op') := by
  intro g g' hg
  obtain ⟨hout, hrel⟩ := h g g' hg
  rw [run_guarding, run_guarding]
  rcases hr : op.run g with ⟨e | a, k⟩ <;> rcases hr' : op'.run g' with ⟨e' | a', k'⟩ <;>
    rw [hr, hr'] at hout hrel <;> cases hout
  · exact ⟨rfl, hhalt e k k' hrel⟩
  · exact ⟨rfl, hrel⟩

end Agree
end Op

/-! ## Gateways that are alike -/

/-- The counters with more rejections. -/
def Counters.rejecting (c : Counters) (n : UInt64) : Counters :=
  { c with sessionsRejected := c.sessionsRejected + n }

theorem Counters.count_rejecting (c : Counters) (n : UInt64) (e : Event) :
    (c.rejecting n).count e = (c.count e).rejecting n := by
  cases e with
  | sessionRejected =>
    simp only [rejecting, count]
    rw [UInt64.add_assoc, UInt64.add_comm n, ← UInt64.add_assoc]
  | queryAborted forced => cases forced <;> rfl
  | _ => rfl

theorem Metrics.count_rejecting {m m' : Metrics} {n : UInt64} (h : m'.counters = m.counters.rejecting n)
    (e : Event) : (m'.count e).counters = (m.count e).counters.rejecting n := by
  rw [counters_count, counters_count, h, Counters.count_rejecting]

namespace Gateway

/-- A gateway with other locks and other metrics. -/
def dress (g : Gateway S) (locks : Table S.Party (Lock Unit)) (metrics : Metrics) : Gateway S :=
  { g with gate := { g.gate with locks := locks }, metrics := metrics }

/-- Gateways that differ in locks and metrics only, and of whose counters the second has so many more
rejections. -/
def Alike (n : UInt64) (g g' : Gateway S) : Prop :=
  ∃ locks metrics, g' = g.dress locks metrics ∧ metrics.counters = g.metrics.counters.rejecting n

variable {n : UInt64} {g g' : Gateway S}

/-- A step that comes to the same outcome on gateways that are alike, and leaves them alike. -/
abbrev Blind (n : UInt64) (act : Step S α) : Prop := Action.Agree (Alike n) act act

/-! ## Steps -/

theorem blind_onVouchers (act : VoucherStore.Act S α) : Blind n (onVouchers act) :=
  .within act (fun _ _ ⟨_, _, h, _⟩ => h ▸ rfl) fun _ _ _ ⟨locks, metrics, h, hm⟩ =>
    ⟨locks, metrics, h ▸ rfl, hm⟩

theorem blind_onUnmarked (act : CostBook → CostStore.Act S α) : Blind n (onUnmarked act) :=
  .within _ (fun _ _ ⟨_, _, h, _⟩ => h ▸ rfl) fun _ _ _ ⟨locks, metrics, h, hm⟩ =>
    ⟨locks, metrics, h ▸ rfl, hm⟩

theorem blind_onBalances (act : CostBook → CostStore.Act S α) : Blind n (onBalances act) :=
  .within _ (fun _ _ ⟨_, _, h, _⟩ => h ▸ rfl) fun _ _ _ ⟨locks, metrics, h, hm⟩ =>
    ⟨locks, metrics, h ▸ rfl, hm⟩

theorem blind_count (e : Event) : Blind n (count (S := S) e) := by
  refine .update fun g g' h => ?_
  obtain ⟨locks, metrics, rfl, hm⟩ := h
  exact ⟨locks, metrics.count e, rfl, Metrics.count_rejecting hm e⟩

/-- Rejections do not count towards a total that may run over. -/
theorem blind_report (e : Event) (answer : α) : Blind n (report (S := S) e answer) := by
  rintro g _ ⟨locks, metrics, rfl, hm⟩
  rw [run_report, run_report]
  have same : metrics.counters.told e answer = g.metrics.counters.told e answer := by
    rw [hm]
    cases e <;> rfl
  exact ⟨congrArg Except.ok same, locks, metrics.count e, rfl, Metrics.count_rejecting hm e⟩

/-- A change of the gateway's own records that leaves locks and metrics alone. -/
theorem blind_update {f : Gateway S → Gateway S} (hf : ∀ g locks metrics,
    f (g.dress locks metrics) = (f g).dress locks metrics ∧ (f g).metrics = g.metrics) :
    Blind n (Action.update f : Step S Unit) := by
  refine .update fun g g' h => ?_
  obtain ⟨locks, metrics, rfl, hm⟩ := h
  obtain ⟨hdress, hmetrics⟩ := hf g locks metrics
  exact ⟨locks, metrics, hdress, hmetrics ▸ hm⟩

theorem blind_updateQuery (id : QueryId) (f : Query S → Query S) : Blind n (updateQuery id f) :=
  blind_update fun _ _ _ => ⟨rfl, rfl⟩

theorem blind_updateSession (id : SessionId) (f : Session S → Session S) : Blind n (updateSession id f) :=
  blind_update fun _ _ _ => ⟨rfl, rfl⟩

/-- A step that goes on with what it reads, which is not among locks and metrics. -/
theorem blind_read {next : Gateway S → Step S α}
    (hsame : ∀ g locks metrics, next (g.dress locks metrics) = next g) (hn : ∀ g, Blind n (next g)) :
    Blind n (get >>= next) := by
  refine .get_bind fun g g' h => ?_
  obtain ⟨locks, metrics, rfl, -⟩ := h
  rw [hsame]
  exact hn g

theorem blind_findQuery (id : QueryId) : Blind n (findQuery (S := S) id) := by
  refine blind_read (fun _ _ _ => rfl) fun g => ?_
  cases g.queries.find? id with
  | some q => exact .pure q
  | none => exact .throw _

theorem blind_findOpenSession (id : SessionId) : Blind n (findOpenSession (S := S) id) := by
  refine blind_read (fun _ _ _ => rfl) fun g => ?_
  cases g.sessions.find? id with
  | none => exact .throw _
  | some s => exact .ite (.pure s) (.throw _)

/-! ## Spending -/

section Spending

variable (client : S.Party)

theorem blind_noteMarked : Blind n (noteMarked client) := blind_update fun _ _ _ => ⟨rfl, rfl⟩

theorem blind_completeSpend (p : PendingSpend S) : Blind n (completeSpend client p) := by
  unfold completeSpend
  refine (blind_onUnmarked _).bind fun left => .bind (blind_update fun _ _ _ => ⟨rfl, rfl⟩) fun _ => ?_
  rcases p.query with _ | id
  case' some => refine (blind_updateQuery id _).bind fun _ => ?_
  -- with or without a query, the voucher is queued in the end
  all_goals
    refine .get_bind fun g g' ⟨locks, metrics, hg', hm⟩ => ?_
    subst hg'
    exact .bind (.set ⟨locks, metrics, rfl, hm⟩) fun _ => .ite (.pure _) (.throw _)

theorem blind_spend (v : Voucher S) (query : Option QueryId) : Blind n (spend client v query) :=
  .bind (blind_update fun _ _ _ => ⟨rfl, rfl⟩) fun _ => (blind_onVouchers _).bind fun _ =>
    (blind_noteMarked client).bind fun _ => blind_completeSpend client _

theorem blind_resumeSpend : Blind n (resumeSpend client) := by
  refine blind_read (fun _ _ _ => rfl) fun g => ?_
  have done : ∀ p : PendingSpend S, Blind n (do
      let left ← completeSpend client p
      pure (some left) : Step S (Option Atoms)) := fun p =>
    (blind_completeSpend client p).bind fun _ => .pure _
  cases g.interrupted.get? client with
  | none => exact .pure _
  | some p =>
    dsimp only
    cases p.marked with
    | true => exact done p
    | false =>
      have ensure : Blind n (ensureMarked p.voucher.id) :=
        (blind_onVouchers _).bind fun _ => .ite (.pure _) (blind_onVouchers _)
      exact ensure.bind fun _ => (blind_noteMarked client).bind fun _ => done p

theorem blind_spendCovered (query : Option QueryId) (vs : List (Voucher S)) (unmarked : Atoms) :
    Blind n (spendCovered client query vs unmarked) := by
  induction vs generalizing unmarked with
  | nil => exact .pure _
  | cons v rest ih => exact .ite (.pure _) ((blind_spend client v query).bind fun left => ih left)

theorem blind_absorb (unmarked : Atoms) (query : Option QueryId) : Blind n (absorb client unmarked query) :=
  (blind_resumeSpend client).bind fun _ => blind_read (fun _ _ _ => rfl) fun _ =>
    (blind_onVouchers _).bind fun vs => blind_spendCovered client query vs _

end Spending

/-! ## Vouchers -/

section Vouchers

variable (client vendor : S.Party)

theorem blind_reject (reason : Rejection) : Blind n (reject reason : Step S α) :=
  (blind_count .sessionRejected).bind fun _ => .throw _

theorem blind_absorbArrears (arrears : Atoms) : Blind n (absorbArrears client arrears) := by
  refine (Action.Agree.attempt (blind_absorb client arrears none)).bind fun outcome => ?_
  cases outcome with
  | ok _ => exact .pure _
  | error e => exact .ite (.throw e) (.pure _)

theorem blind_priorNonce : Blind n (priorNonce client) :=
  blind_read (fun _ _ _ => rfl) fun _ => (blind_onVouchers _).bind fun _ => .pure _

theorem blind_recordVoucher (v : Voucher S) (prior : UInt64) (chain : ChainSnapshot) :
    Blind n (recordVoucher v prior chain) := by
  refine blind_read (fun _ _ _ => rfl) fun g => (blind_onVouchers _).bind fun verdict => ?_
  cases verdict with
  | rejected reason => exact blind_reject reason
  | accepted =>
    refine (blind_onUnmarked _).bind fun arrears => (blind_onVouchers _).bind fun added => ?_
    exact .ite (blind_reject _) (.ite ((blind_absorbArrears _ _).bind fun _ => .pure _) (.pure _))

theorem blind_openSession (nonce : UInt64) : Blind n (openSession client nonce) := by
  refine .get_bind fun g g' ⟨locks, metrics, hg', hm⟩ => ?_
  subst hg'
  exact .bind (.set ⟨locks, metrics, rfl, hm⟩) fun _ => blind_report _ _

theorem blind_closeSession (id : SessionId) : Blind n (closeSession (S := S) id) := by
  refine .get_bind fun g g' ⟨locks, metrics, hg', hm⟩ => ?_
  subst hg'
  dsimp only [dress]
  cases g.sessions.find? id with
  | none => exact .throw _
  | some s => exact .ite (.bind (.set ⟨locks, metrics, rfl, hm⟩) fun _ => blind_count _) (.pure _)

end Vouchers

/-! ## Queries -/

section Queries

variable (client vendor : S.Party)

theorem blind_creditState : Blind n (creditState vendor client) :=
  (blind_onVouchers _).bind fun _ => (blind_onUnmarked _).bind fun _ => (blind_onBalances _).bind fun _ =>
    .pure _

theorem blind_creditAt (chain : ChainSnapshot) : Blind n (creditAt vendor client chain) := by
  refine (blind_creditState client vendor).bind fun state => .bind (.view ?_) fun _ => .pure _
  rintro g g' ⟨locks, metrics, rfl, -⟩
  rfl

theorem blind_headVoucher : Blind n (headVoucher vendor client) := by
  refine (blind_onVouchers _).bind fun vs => ?_
  cases vs with
  | nil => exact .pure _
  | cons v rest => exact (blind_onUnmarked _).bind fun _ => .pure _

theorem blind_lockEstimate (session : SessionId) (estimated : Atoms) (chain : ChainSnapshot) :
    Blind n (lockEstimate session client estimated chain) := by
  refine .ite ((blind_count _).bind fun _ => .throw_bind _) ?_
  refine blind_read (fun _ _ _ => rfl) fun g => (blind_creditAt client _ chain).bind fun credit => ?_
  refine .ite ((blind_count _).bind fun _ => .throw_bind _) ?_
  refine .get_bind fun g g' ⟨locks, metrics, hg', hm⟩ => ?_
  subst hg'
  refine .bind (.set ⟨locks, metrics, rfl, hm⟩) fun _ => (blind_onBalances _).bind fun _ =>
    (Action.Agree.give _).bind fun q => .bind (blind_update fun _ _ _ => ⟨rfl, rfl⟩) fun _ =>
      (blind_count _).bind fun _ => .pure _

theorem blind_fixCost (q : Query S) (usage : Usage) : Blind n (fixCost q usage) := by
  unfold fixCost
  cases q.actual with
  | some cost => exact .pure cost
  | none => exact blind_read (fun _ _ _ => rfl) fun _ => (blind_updateQuery _ _).bind fun _ => .pure _

theorem blind_releaseEstimate (q : Query S) : Blind n (releaseEstimate q) := by
  unfold releaseEstimate
  cases q.released with
  | true => exact .pure _
  | false => exact (blind_onBalances _).bind fun _ => blind_updateQuery _ _

theorem blind_charge (q : Query S) (cost : Atoms) : Blind n (charge q cost) := by
  have flag : ∀ unmarked : Atoms, Blind n (do
      updateQuery q.id fun q => { q with charged := true }
      pure unmarked : Step S Atoms) := fun _ => (blind_updateQuery _ _).bind fun _ => .pure _
  exact .ite (blind_onUnmarked _) (.ite ((blind_onUnmarked _).bind flag) ((blind_onUnmarked _).bind flag))

theorem blind_issueReceipt (id : QueryId) (cost : Atoms) (partlyUsed : Option (VoucherId S))
    (creditAfter : CreditState) : Blind n (issueReceipt id cost partlyUsed creditAfter) :=
  blind_read (fun _ _ _ => rfl) fun _ => (blind_findQuery id).bind fun _ => (Action.Agree.give _).bind fun _ =>
    (blind_updateQuery _ _).bind fun _ => .pure _

theorem blind_finishSettling (q : Query S) (usage : Usage) : Blind n (finishSettling q usage) := by
  refine (blind_fixCost q usage).bind fun cost => (blind_releaseEstimate q).bind fun _ =>
    (blind_charge q cost).bind fun unmarked => (blind_absorb _ _ _).bind fun _ =>
      blind_read (fun _ _ _ => rfl) fun g => (blind_creditState _ _).bind fun credit => ?_
  have finish : ∀ head : Option (HeadVoucher S), Blind n (do
      let receipt ← issueReceipt q.id cost (head.map (·.voucher.id)) credit
      report (.querySettled cost) receipt : Step S (Completion (Receipt S))) := fun _ =>
    (blind_issueReceipt _ _ _ _).bind fun _ => blind_report _ _
  exact .ite ((blind_headVoucher _ _).bind finish) (finish none)

theorem blind_settleNow (id : QueryId) (usage : Usage) : Blind n (settleNow (S := S) id usage) := by
  refine (blind_findQuery id).bind fun q => ?_
  split
  · exact .pure _
  · exact .throw _
  · exact blind_finishSettling q usage

theorem blind_finishAborting (q : Query S) (forced : Bool) : Blind n (finishAborting q forced) := by
  refine (blind_releaseEstimate q).bind fun _ => blind_read (fun _ _ _ => rfl) fun g =>
    (blind_findQuery q.id).bind fun current => ?_
  dsimp only
  cases ({ current with forced := forced } : Query S).moveTo .aborted g.now with
  | ok aborted => exact (blind_updateQuery _ _).bind fun _ => blind_count _
  | error e => exact (blind_updateQuery _ _).bind fun _ => .throw_bind e

theorem blind_abortNow (id : QueryId) (forced : Bool) : Blind n (abortNow (S := S) id forced) := by
  refine (blind_findQuery id).bind fun q => ?_
  cases q.state with
  | aborted => exact .pure _
  | settled => exact .throw _
  | _ => exact blind_finishAborting q forced

end Queries

/-! ## Operations -/

/-- The same of an operation. -/
abbrev BlindOp (n : UInt64) (op : Op S α) : Prop := Op.Agree (Alike n) op op

theorem blind_perform {step : Step S α} (h : Blind n step) : BlindOp n (perform step) := h

/-- An operation that goes on with what it reads, which is not among locks and metrics. -/
theorem blindOp_read {next : Gateway S → Op S α}
    (hsame : ∀ g locks metrics, next (g.dress locks metrics) = next g) (hn : ∀ g, BlindOp n (next g)) :
    BlindOp n (get >>= next) := by
  refine .get_bind fun g g' h => ?_
  obtain ⟨locks, metrics, rfl, -⟩ := h
  rw [hsame]
  exact hn g

theorem blind_guarding (client : S.Party) {op : Op S α} (h : BlindOp n op) :
    BlindOp n (guarding client op) := by
  refine .guarding h fun e g g' hg => ?_
  obtain ⟨locks, metrics, rfl, hm⟩ := hg
  unfold haltFor
  split <;> exact ⟨locks, metrics, rfl, hm⟩

theorem blind_passGate (client : S.Party) : Blind n (passGate client) := by
  refine .get_bind fun g g' ⟨locks, metrics, hg', hm⟩ => ?_
  subst hg'
  have hreason : (g.dress locks metrics).gate.haltReason? client = g.gate.haltReason? client := rfl
  unfold Gate.pass
  rw [hreason]
  cases g.gate.haltReason? client with
  | none => exact .set ⟨_, metrics, rfl, hm⟩
  | some reason => exact .throw _

theorem blind_enter (client : S.Party) : BlindOp n (enter client) := by
  intro g g' hg
  rw [Op.run_enter, Op.run_enter]
  exact blind_passGate client g g' hg

theorem blind_readChain (client vendor : S.Party) : BlindOp n (readChain client vendor) := by
  rintro g g' ⟨locks, metrics, rfl, hm⟩
  rw [Op.run_readChain, Op.run_readChain]
  exact ⟨rfl, locks, metrics, rfl, hm⟩

theorem blind_acceptVoucher (v : Voucher S) : BlindOp n (acceptVoucher v) :=
  (blind_perform (blind_priorNonce v.client)).bind fun prior => blindOp_read (fun _ _ _ => rfl) fun g =>
    (blind_readChain v.client g.vendor).bind fun chain => blind_perform (blind_recordVoucher v prior chain)

theorem blind_acceptSession (v : Voucher S) : BlindOp n (acceptSession v) :=
  (blind_enter v.client).bind fun _ => (blind_guarding v.client (blind_acceptVoucher v)).bind fun nonce =>
    blind_perform (blind_openSession v.client nonce)

theorem blind_topUp (id : SessionId) (v : Voucher S) : BlindOp n (topUp id v) := by
  refine (blind_perform (blind_findOpenSession id)).bind fun session => .ite (.throw_bind _) ?_
  exact (blind_enter session.client).bind fun _ => (blind_perform (blind_findOpenSession id)).bind fun _ =>
    (blind_guarding session.client (blind_acceptVoucher v)).bind fun nonce =>
      blindOp_read (fun _ _ _ => rfl) fun _ => blind_perform (blind_updateSession id _)

theorem blind_reserve (session : SessionId) (client : S.Party) (estimated : Atoms) :
    BlindOp n (reserve session client estimated) :=
  (blind_perform (blind_resumeSpend client)).bind fun _ => blindOp_read (fun _ _ _ => rfl) fun g =>
    (blind_readChain client g.vendor).bind fun chain =>
      blind_perform (blind_lockEstimate client session estimated chain)

theorem blind_acceptQuery (session : SessionId) (estimated : Atoms) :
    BlindOp (S := S) n (acceptQuery session estimated) :=
  (blind_perform (blind_findOpenSession session)).bind fun s => (blind_enter s.client).bind fun _ =>
    (blind_perform (blind_findOpenSession session)).bind fun _ =>
      (blind_guarding s.client (blind_reserve session s.client estimated)).bind fun id =>
        blindOp_read (fun _ _ _ => rfl) fun _ =>
          (blind_perform (blind_updateSession session _)).bind fun _ => .pure id

theorem blind_settleQuery (id : QueryId) (usage : Usage) : BlindOp (S := S) n (settleQuery id usage) :=
  (blind_perform (blind_findQuery id)).bind fun q => (blind_enter q.client).bind fun _ =>
    blind_guarding q.client (blind_perform (blind_settleNow id usage))

theorem blind_abort (id : QueryId) (forced : Bool) : BlindOp (S := S) n (abort id forced) :=
  (blind_perform (blind_findQuery id)).bind fun q => (blind_enter q.client).bind fun _ =>
    blind_guarding q.client (blind_perform (blind_abortNow id forced))

theorem blind_resumeClient (client : S.Party) : Blind n (resumeClient client) := by
  rintro g g' ⟨locks, metrics, rfl, hm⟩
  exact ⟨rfl, locks, metrics, rfl, hm⟩

/-! ## The reaper -/

theorem blind_countSuccesses {ι : Type} {act : ι → Op S Bool} (h : ∀ i, BlindOp n (act i)) (items : List ι) :
    BlindOp n (countSuccesses act items) := by
  induction items with
  | nil => exact .pure 0
  | cons i rest ih => exact (h i).bind fun _ => ih.bind fun _ => .pure _

theorem blind_forceAbort (id : QueryId) : BlindOp (S := S) n (forceAbort id) :=
  (blind_abort id true).attempt.bind fun outcome => .pure outcome.isOk

theorem blind_closeIdle (asOf : Nat) (id : SessionId) : BlindOp (S := S) n (closeIdle asOf id) := by
  refine blindOp_read (fun _ _ _ => rfl) fun g => ?_
  cases g.sessions.find? id with
  | none => exact .pure false
  | some s =>
    refine (blind_enter s.client).attempt.bind fun outcome => ?_
    cases outcome with
    | error _ => exact .pure false
    | ok _ =>
      refine .get_bind fun g g' ⟨locks, metrics, hg', hm⟩ => ?_
      subst hg'
      exact .ite
        (.set_bind ⟨locks, metrics.count .sessionClosed, rfl, Metrics.count_rejecting hm _⟩ (.pure true))
        (.pure false)

theorem blind_purge (asOf : Nat) : Blind n (purge (S := S) asOf) := by
  rintro g g' ⟨locks, metrics, rfl, hm⟩
  exact ⟨rfl, locks, metrics, rfl, hm⟩

theorem blind_reap (asOf : Nat) : BlindOp (S := S) n (reap asOf) := by
  refine blindOp_read (fun _ _ _ => rfl) fun g => ?_
  refine (blind_countSuccesses blind_forceAbort _).bind fun aborted => ?_
  refine blindOp_read (fun _ _ _ => rfl) fun g => ?_
  refine (blind_countSuccesses (blind_closeIdle asOf) _).bind fun closed => ?_
  refine (blind_perform (blind_purge asOf)).bind fun purged => ?_
  rintro g g' ⟨locks, metrics, rfl, hm⟩
  refine ⟨rfl, _, metrics.flush, rfl, ?_⟩
  rw [Metrics.counters_flush, hm]
  exact congrArg (Counters.rejecting · n) (Metrics.counters_flush _).symm

end Gateway
end VoucherGateway
