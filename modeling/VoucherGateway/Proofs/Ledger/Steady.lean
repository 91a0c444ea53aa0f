import VoucherGateway.Gateway.Operations
import VoucherGateway.Proofs.Confined
import VoucherGateway.Proofs.Ledger.Calls

/-!
# Steadiness — operations while every store answers

Stores that answer every call go on doing so, and no step fails for want of an answer then (`Steady`).
-/

namespace VoucherGateway

variable {S : Scheme} {σ τ α β : Type}

/-! ## Steady actions -/

namespace Action

variable {R : σ → Prop} {T : τ → Prop}

/-- From states with a property an action leaves states with it, and does not fail for want of an answer. -/
def Steady (R : σ → Prop) (act : Action σ Error α) : Prop :=
  ∀ s, R s → Ends (fun _ s' => R s') (fun e s' => R s' ∧ ¬ e.IsOutage) (act.run s)

namespace Steady

theorem pure (a : α) : Steady R (Pure.pure a) := Confined.pure a

theorem throw {e : Error} (he : ¬ e.IsOutage) : Steady R (MonadExcept.throw e : Action σ Error α) :=
  Confined.throw he

theorem bind {act : Action σ Error α} {next : α → Action σ Error β} (h : Steady R act)
    (hn : ∀ a, Steady R (next a)) : Steady R (act >>= next) := Confined.bind h hn

theorem get_bind {next : σ → Action σ Error β} (hn : ∀ s, R s → Steady R (next s)) :
    Steady R (get >>= next) := Confined.get_bind hn

theorem set {t : σ} (ht : R t) : Steady R (MonadStateOf.set t : Action σ Error PUnit) := Confined.set ht

theorem update {f : σ → σ} (hf : ∀ s, R s → R (f s)) : Steady R (Action.update f) := Confined.update hf

theorem give {r : Except Error α} (he : ∀ e, r = .error e → ¬ e.IsOutage) : Steady R (Action.give r) :=
  Confined.give he

theorem ite {c : Prop} [Decidable c] {act act' : Action σ Error α} (h : Steady R act) (h' : Steady R act') :
    Steady R (if c then act else act') := Confined.ite h h'

/-- On a part of a state an action is as steady as it is on the part alone. -/
theorem within {get : τ → σ} {set : σ → τ → τ} {act : Action σ Error α} (h : Steady R act)
    (hget : ∀ t, T t → R (get t)) (hset : ∀ s t, R s → T t → T (set s t)) :
    Steady T (Action.within get set act) := Confined.within h hget hset

/-- Whether or not a state has the property, a steady action keeps it and does not fail for want of an answer
from a state that has it. -/
theorem ends {act : Action σ Error α} (h : Steady R act) (s : σ) :
    Ends (fun _ s' => R s → R s') (fun e _ => R s → ¬ e.IsOutage) (act.run s) := by
  have hs := h s
  rcases hr : act.run s with ⟨e | a, s'⟩ <;> rw [hr] at hs
  · exact fun hR => (hs hR).2
  · exact hs

end Steady
end Action

theorem Error.not_isOutage_violation (v : Violation) : ¬ (Error.violation v).IsOutage := nofun

/-! ## Stores that answer -/

/-- No call fails, now or later. -/
structure Outage.Reliable {κ : Type} [DecidableEq κ] (o : Outage κ) : Prop where
  available : o.available = true
  answers : ∀ kind p, o.plans.get? kind = some p → ∀ n, p.fails n = false

theorem Outage.Reliable.check {κ : Type} [DecidableEq κ] (store : String) (name : κ → String) (kind : κ) :
    Action.Steady Outage.Reliable (Outage.check store name kind) := by
  intro o ho
  unfold Action.run Outage.check
  rw [if_pos ho.available]
  cases hp : o.plans.get? kind with
  | none => exact ho
  | some p =>
    have hnow : p.failsNow = false := ho.answers kind p hp _
    dsimp only
    rw [hnow, if_neg Bool.false_ne_true]
    refine ⟨ho.available, fun kind' p' hp' n => ?_⟩
    -- counting the call does not change which calls fail
    have hget := Table.get?_put o.plans kind kind' p.step
    rw [show (o.plan kind p.step).plans = o.plans.put kind p.step from rfl, hget] at hp'
    split at hp'
    · obtain rfl := Option.some.inj hp'
      exact ho.answers kind p hp n
    · exact ho.answers kind' p' hp' n

/-- A cost store that answers every call. -/
def CostStore.Reliable (s : CostStore S) : Prop := s.outage.Reliable

/-- A voucher store that answers every call. -/
def VoucherStore.Reliable (s : VoucherStore S) : Prop := s.outage.Reliable

/-- Every store of a gateway answers each call. -/
def Gateway.Reliable (g : Gateway S) : Prop :=
  g.vouchers.Reliable ∧ g.unmarked.Reliable ∧ g.balances.Reliable

namespace CostStore

open VoucherGateway.Action

variable (book : CostBook) (client : S.Party) (atoms : Atoms)

theorem steady_check (kind : CostCall) : Steady (Reliable (S := S)) (check book kind) :=
  (Outage.Reliable.check _ _ kind).within (fun _ h => h) fun _ _ h _ => h

theorem steady_read : Steady (Reliable (S := S)) (read book client) :=
  (steady_check book .read).bind fun _ _ hs => hs

theorem steady_add : Steady (Reliable (S := S)) (add book client atoms) := by
  refine (steady_check book .add).bind fun _ => .get_bind fun s hs => ?_
  cases Atoms.add? (s.cost client) atoms with
  | some sum => exact .bind (.set hs) fun _ => .pure _
  | none => exact .throw (Error.not_isOutage_violation _)

theorem steady_subtract : Steady (Reliable (S := S)) (subtract book client atoms) := by
  refine (steady_check book .subtract).bind fun _ => .get_bind fun s hs => ?_
  cases Atoms.sub? (s.cost client) atoms with
  | some rest => exact .bind (.set hs) fun _ => .pure _
  | none => exact .throw (Error.not_isOutage_violation _)

end CostStore

/-- A voucher that does not fit its chain is a contradiction. -/
theorem VoucherChain.insert_error {c : VoucherChain S} {v : Voucher S} {e : Error}
    (h : c.insert v = .error e) : ∃ cause, e = .violation cause := by
  unfold insert at h
  repeat' split at h
  all_goals cases h
  exact ⟨_, rfl⟩

/-- And so is a mark on a voucher that cannot be spent. -/
theorem VoucherChain.markSpent_error {c : VoucherChain S} {id : VoucherId S} {e : Error}
    (h : c.markSpent id = .error e) : ∃ cause, e = .violation cause := by
  unfold markSpent at h
  repeat' split at h
  all_goals cases h
  all_goals exact ⟨_, rfl⟩

namespace VoucherStore

open VoucherGateway.Action

variable (client vendor : S.Party)

theorem steady_check (kind : VoucherCall) : Steady (Reliable (S := S)) (check kind) :=
  (Outage.Reliable.check _ _ kind).within (fun _ h => h) fun _ _ h _ => h

theorem steady_latestNonce : Steady Reliable (latestNonce client vendor) :=
  (steady_check .latestNonce).bind fun _ => .get_bind fun _ _ => .pure _

theorem steady_isSpent (id : VoucherId S) : Steady Reliable (isSpent id) :=
  (steady_check .isSpent).bind fun _ => .get_bind fun _ _ => .pure _

theorem steady_unspent : Steady Reliable (unspent client vendor) :=
  (steady_check .unspent).bind fun _ => .get_bind fun _ _ => .pure _

theorem steady_insert (v : Voucher S) : Steady Reliable (insert v) := by
  refine (steady_check .insert).bind fun _ => .get_bind fun s hs => .bind (.give fun e he => ?_) fun _ =>
    .bind (.set hs) fun _ => .pure _
  obtain ⟨cause, rfl⟩ := VoucherChain.insert_error he
  exact Error.not_isOutage_violation cause

theorem steady_markSpent (id : VoucherId S) : Steady Reliable (markSpent id) := by
  refine (steady_check .markSpent).bind fun _ => .get_bind fun s hs => .bind (.give fun e he => ?_) fun _ =>
    .set hs
  obtain ⟨cause, rfl⟩ := VoucherChain.markSpent_error he
  exact Error.not_isOutage_violation cause

end VoucherStore

namespace Gateway

open VoucherGateway.Action

variable {g : Gateway S} {L : Ledger S} (client vendor : S.Party)

theorem steady_onVouchers {act : VoucherStore.Act S α} (h : Steady VoucherStore.Reliable act) :
    Steady Reliable (onVouchers act) :=
  h.within (fun _ hg => hg.1) fun _ _ hs hg => ⟨hs, hg.2⟩

theorem steady_onUnmarked {act : CostBook → CostStore.Act S α}
    (h : Steady CostStore.Reliable (act .unmarked)) : Steady Reliable (onUnmarked act) :=
  h.within (fun _ hg => hg.2.1) fun _ _ hs hg => ⟨hg.1, hs, hg.2.2⟩

theorem steady_onBalances {act : CostBook → CostStore.Act S α}
    (h : Steady CostStore.Reliable (act .balances)) : Steady Reliable (onBalances act) :=
  h.within (fun _ hg => hg.2.2) fun _ _ hs hg => ⟨hg.1, hg.2.1, hs⟩

theorem steady_readUnmarked : Steady Reliable (onUnmarked fun book => CostStore.read (S := S) book client) :=
  steady_onUnmarked (CostStore.steady_read _ client)

/-! ## Spending -/

theorem steady_completeSpend (p : PendingSpend S) : Steady Reliable (completeSpend client p) := by
  unfold completeSpend
  refine (steady_onUnmarked (CostStore.steady_subtract _ _ _)).bind fun left => ?_
  refine Steady.bind (.update fun _ hg => hg) fun _ => ?_
  rcases p.query with _ | id
  on_goal 2 => refine Steady.bind (.update fun _ hg => hg) fun _ => ?_
  -- with or without a query, the voucher is queued in the end
  all_goals
    exact .get_bind fun _ hg => .bind (.set hg) fun _ =>
      .ite (.pure _) (.throw (Error.not_isOutage_violation _))

theorem steady_markSpent (id : VoucherId S) : Steady Reliable (onVouchers (VoucherStore.markSpent id)) :=
  steady_onVouchers (VoucherStore.steady_markSpent id)

theorem steady_noteMarked : Steady (Reliable (S := S)) (noteMarked client) := .update fun _ hg => hg

theorem steady_spend (v : Voucher S) (query : Option QueryId) : Steady Reliable (spend client v query) :=
  .bind (.update fun _ hg => hg) fun _ => (steady_markSpent v.id).bind fun _ =>
    (steady_noteMarked client).bind fun _ => steady_completeSpend client _

theorem steady_resumeSpend : Steady (Reliable (S := S)) (resumeSpend client) := by
  refine .get_bind fun g _ => ?_
  have done : ∀ p : PendingSpend S, Steady Reliable (do
      let left ← completeSpend client p
      pure (some left) : Step S (Option Atoms)) := fun p =>
    (steady_completeSpend client p).bind fun _ => .pure _
  cases g.interrupted.get? client with
  | none => exact .pure _
  | some p =>
    dsimp only
    cases p.marked with
    | true => exact done p
    | false =>
      have ensure : Steady Reliable (ensureMarked p.voucher.id) :=
        (steady_onVouchers (VoucherStore.steady_isSpent _)).bind fun _ => .ite (.pure _) (steady_markSpent _)
      exact ensure.bind fun _ => (steady_noteMarked client).bind fun _ => done p

theorem steady_spendCovered (query : Option QueryId) (vs : List (Voucher S)) (unmarked : Atoms) :
    Steady Reliable (spendCovered client query vs unmarked) := by
  induction vs generalizing unmarked with
  | nil => exact .pure _
  | cons v rest ih => exact .ite (.pure _) ((steady_spend client v query).bind fun left => ih left)

theorem steady_absorb (unmarked : Atoms) (query : Option QueryId) :
    Steady (Reliable (S := S)) (absorb client unmarked query) :=
  (steady_resumeSpend client).bind fun _ => .get_bind fun _ _ =>
    (steady_onVouchers (VoucherStore.steady_unspent _ _)).bind fun vs => steady_spendCovered client query vs _

/-! ## Settling -/

theorem steady_creditState : Steady (Reliable (S := S)) (creditState vendor client) :=
  (steady_onVouchers (VoucherStore.steady_unspent _ _)).bind fun _ =>
    (steady_readUnmarked client).bind fun _ =>
      (steady_onBalances (CostStore.steady_read _ _)).bind fun _ => .pure _

theorem steady_headVoucher : Steady (Reliable (S := S)) (headVoucher vendor client) := by
  refine (steady_onVouchers (VoucherStore.steady_unspent _ _)).bind fun vs => ?_
  cases vs with
  | nil => exact .pure _
  | cons v rest => exact (steady_readUnmarked client).bind fun _ => .pure _

theorem steady_findQuery (id : QueryId) : Steady (Reliable (S := S)) (findQuery id) := by
  refine .get_bind fun g _ => ?_
  cases g.queries.find? id with
  | some q => exact .pure q
  | none => exact .throw nofun

theorem steady_fixCost (q : Query S) (usage : Usage) : Steady Reliable (fixCost q usage) := by
  unfold fixCost
  cases q.actual with
  | some cost => exact .pure cost
  | none => exact .get_bind fun _ _ => .bind (.update fun _ hg => hg) fun _ => .pure _

theorem steady_releaseEstimate (q : Query S) : Steady Reliable (releaseEstimate q) := by
  unfold releaseEstimate
  cases q.released with
  | true => exact .pure _
  | false =>
    exact (steady_onBalances (CostStore.steady_subtract _ _ _)).bind fun _ => .update fun _ hg => hg

theorem steady_charge (q : Query S) (cost : Atoms) : Steady Reliable (charge q cost) := by
  have flag : ∀ unmarked : Atoms, Steady Reliable (do
      updateQuery q.id fun q => { q with charged := true }
      pure unmarked : Step S Atoms) := fun _ => .bind (.update fun _ hg => hg) fun _ => .pure _
  exact .ite (steady_readUnmarked _)
    (.ite ((steady_onUnmarked (CostStore.steady_add _ _ _)).bind flag) ((steady_readUnmarked _).bind flag))

theorem steady_issueReceipt (id : QueryId) (cost : Atoms) (partlyUsed : Option (VoucherId S))
    (creditAfter : CreditState) : Steady Reliable (issueReceipt id cost partlyUsed creditAfter) := by
  refine .get_bind fun g _ => (steady_findQuery id).bind fun q => ?_
  refine (Steady.give ?_).bind fun _ => .bind (.update fun _ hg => hg) fun _ => .pure _
  intro e he
  unfold Query.moveTo at he
  split at he <;> cases he
  exact nofun

theorem steady_report (e : Event) (answer : α) : Steady (Reliable (S := S)) (report e answer) := by
  intro g hg
  rw [run_report]
  exact hg

theorem steady_finishSettling (q : Query S) (usage : Usage) : Steady Reliable (finishSettling q usage) := by
  refine (steady_fixCost q usage).bind fun cost => (steady_releaseEstimate q).bind fun _ =>
    (steady_charge q cost).bind fun unmarked => (steady_absorb _ _ _).bind fun _ => .get_bind fun g _ =>
      (steady_creditState _ _).bind fun credit => ?_
  have finish : ∀ head : Option (HeadVoucher S), Steady Reliable (do
      let receipt ← issueReceipt q.id cost (head.map (·.voucher.id)) credit
      report (.querySettled cost) receipt : Step S (Completion (Receipt S))) := fun _ =>
    (steady_issueReceipt _ _ _ _).bind fun _ => steady_report _ _
  exact .ite ((steady_headVoucher _ _).bind finish) (finish none)

theorem steady_settleNow (id : QueryId) (usage : Usage) : Steady (Reliable (S := S)) (settleNow id usage) := by
  refine (steady_findQuery id).bind fun q => ?_
  split
  · exact .pure _
  · exact .throw nofun
  · exact steady_finishSettling q usage

theorem steady_passGate : Steady (Reliable (S := S)) (passGate client) := by
  refine .get_bind fun g hg => ?_
  cases g.gate.pass client with
  | ok gate => exact .set hg
  | error reason => exact .throw nofun

/-- A settlement does not break off. -/
theorem ends_settleQuery_of_reliable (id : QueryId) (usage : Usage) (hr : g.Reliable) :
    Ends (fun _ _ => True) (fun e _ => ¬ e.IsOutage) ((settleQuery id usage).run g) := by
  unfold settleQuery
  refine Op.ends_bind ((steady_findQuery id g hr).mono_error fun _ _ h => h.2) ?_
  intro q g₁ hr₁
  have henter : Ends (fun _ => Reliable) (fun e _ => ¬ e.IsOutage) ((enter q.client).run g₁) := by
    rw [Op.run_enter]
    exact (steady_passGate q.client g₁ hr₁).mono_error fun _ _ h => h.2
  refine Op.ends_bind henter ?_
  intro _ g₂ hr₂
  have h := steady_settleNow id usage g₂ hr₂
  rw [Op.run_guarding, Op.run_perform]
  rcases hr : (settleNow id usage).run g₂ with ⟨e | answer, g₃⟩ <;> rw [hr] at h
  · exact h.2
  · trivial

/-! ## Accepting vouchers -/

theorem steady_validate (v : Voucher S) (config : CreditConfig) (prior : UInt64) (chain : ChainSnapshot) :
    Steady Reliable (onVouchers (v.validate config vendor prior chain)) := by
  refine steady_onVouchers ?_
  unfold Voucher.validate Voucher.checkVolatile
  split
  · exact .pure _
  · split
    · exact .pure _
    · split
      · exact .pure _
      · exact (VoucherStore.steady_isSpent _).bind fun _ => .ite (.pure _) (.pure _)

end Gateway
end VoucherGateway
