import VoucherGateway.Proofs.Confined
import VoucherGateway.Proofs.Ledger.Steady
import VoucherGateway.Proofs.Run.Basic
import VoucherGateway.Proofs.Traffic.Tally

/-!
# Idle steps — what the counters have nothing to do with

Most steps of an operation change neither a counter nor how far a session or a query has come, and when they
fail it is not because a request is refused.  Such steps are *idle*.
-/

namespace VoucherGateway

open VoucherGateway.Action

variable {S : Scheme} {σ α : Type}

/-- Whether an error says that a request is refused. -/
def Error.isRefusal : Error → Bool
  | .rejected _ | .insufficientCredit _ _ => true
  | _ => false

/-- An error that refuses nothing. -/
abbrev Error.NoRefusal (e : Error) : Prop := e.isRefusal = false

/-! ## Stores -/

/-- A step on a store, which refuses nothing. -/
abbrev Willing (act : Action σ Error α) : Prop := Confined (fun _ => True) Error.NoRefusal act

theorem willing_check {κ : Type} [DecidableEq κ] (store : String) (name : κ → String) (kind : κ) :
    Willing (Outage.check store name kind) := by
  intro o _
  rcases hr : (Outage.check store name kind).run o with ⟨e | _, o'⟩
  · obtain ⟨detail, rfl⟩ := Outage.check_error (congrArg Prod.fst hr)
    exact ⟨trivial, rfl⟩
  · trivial

namespace CostStore

variable (book : CostBook) (client : S.Party) (atoms : Atoms)

theorem willing_check (kind : CostCall) : Willing (check (S := S) book kind) :=
  (VoucherGateway.willing_check _ _ kind).within (fun _ _ => trivial) fun _ _ _ _ => trivial

theorem willing_read : Willing (read book client) := (willing_check book .read).bind fun _ => .view _

theorem willing_add : Willing (add book client atoms) := by
  refine (willing_check book .add).bind fun _ => .get_bind fun s _ => ?_
  cases Atoms.add? (s.cost client) atoms with
  | some sum => exact .bind (.set trivial) fun _ => .pure _
  | none => exact .throw rfl

theorem willing_subtract : Willing (subtract book client atoms) := by
  refine (willing_check book .subtract).bind fun _ => .get_bind fun s _ => ?_
  cases Atoms.sub? (s.cost client) atoms with
  | some rest => exact .bind (.set trivial) fun _ => .pure _
  | none => exact .throw rfl

end CostStore

namespace VoucherStore

variable (client vendor : S.Party)

theorem willing_check (kind : VoucherCall) : Willing (check (S := S) kind) :=
  (VoucherGateway.willing_check _ _ kind).within (fun _ _ => trivial) fun _ _ _ _ => trivial

theorem willing_latestNonce : Willing (latestNonce client vendor) :=
  (willing_check .latestNonce).bind fun _ => .get_bind fun _ _ => .pure _

theorem willing_isSpent (id : VoucherId S) : Willing (isSpent id) :=
  (willing_check .isSpent).bind fun _ => .get_bind fun _ _ => .pure _

theorem willing_unspent : Willing (unspent client vendor) :=
  (willing_check .unspent).bind fun _ => .get_bind fun _ _ => .pure _

theorem willing_insert (v : Voucher S) : Willing (insert v) := by
  refine (willing_check .insert).bind fun _ => .get_bind fun s _ => .bind (.give fun e he => ?_) fun _ =>
    .bind (.set trivial) fun _ => .pure _
  obtain ⟨cause, rfl⟩ := VoucherChain.insert_error he
  rfl

theorem willing_markSpent (id : VoucherId S) : Willing (markSpent id) := by
  refine (willing_check .markSpent).bind fun _ => .get_bind fun s _ => .bind (.give fun e he => ?_) fun _ =>
    .set trivial
  obtain ⟨cause, rfl⟩ := VoucherChain.markSpent_error he
  rfl

end VoucherStore

/-! ## Gateways -/

namespace Gateway

variable {T : Tally} (client vendor : S.Party)

/-- A step that leaves the tally alone and refuses nothing. -/
abbrev Idle (T : Tally) (act : Step S α) : Prop :=
  Confined (fun g : Gateway S => g.tally = T) Error.NoRefusal act

theorem idle_onVouchers {act : VoucherStore.Act S α} (h : Willing act) : Idle T (onVouchers act) :=
  h.within (fun _ _ => trivial) fun _ _ _ hg => hg

theorem idle_onUnmarked {act : CostBook → CostStore.Act S α} (h : Willing (act .unmarked)) :
    Idle T (onUnmarked act) :=
  h.within (fun _ _ => trivial) fun _ _ _ hg => hg

theorem idle_onBalances {act : CostBook → CostStore.Act S α} (h : Willing (act .balances)) :
    Idle T (onBalances act) :=
  h.within (fun _ _ => trivial) fun _ _ _ hg => hg

theorem idle_readUnmarked : Idle T (onUnmarked fun book => CostStore.read (S := S) book client) :=
  idle_onUnmarked (CostStore.willing_read _ client)

theorem idle_unspent : Idle T (onVouchers (VoucherStore.unspent (S := S) client vendor)) :=
  idle_onVouchers (VoucherStore.willing_unspent client vendor)

/-- A change of a query that is not seen in the tally. -/
theorem idle_updateQuery (id : QueryId) {f : Query S → Query S} (hf : ∀ q, (f q).row = q.row) :
    Idle T (updateQuery id f) := by
  refine .update fun g hg => ?_
  rw [← hg]
  exact congrArg (Tally.mk _ · _) (g.queries.register_update_of_same id hf)

/-- A change of a session that is not seen in the tally. -/
theorem idle_updateSession (id : SessionId) {f : Session S → Session S} (hf : ∀ s, (f s).row = s.row) :
    Idle T (updateSession id f) := by
  refine .update fun g hg => ?_
  rw [← hg]
  exact congrArg (Tally.mk _ _) (g.sessions.register_update_of_same id hf)

theorem idle_findQuery (id : QueryId) : Idle T (findQuery (S := S) id) := by
  refine .get_bind fun g _ => ?_
  cases g.queries.find? id with
  | some q => exact .pure q
  | none => exact .throw rfl

theorem idle_findOpenSession (id : SessionId) : Idle T (findOpenSession (S := S) id) := by
  refine .get_bind fun g _ => ?_
  cases g.sessions.find? id with
  | none => exact .throw rfl
  | some s => exact .ite (.pure s) (.throw rfl)

theorem idle_refuseHalted : Idle T (refuseHalted client) := by
  refine .get_bind fun g _ => ?_
  cases g.gate.haltReason? client with
  | some reason => exact .throw rfl
  | none => exact .pure _

theorem idle_passGate : Idle T (passGate client) := by
  refine .get_bind fun g hg => ?_
  cases g.gate.pass client with
  | ok gate => exact .set hg
  | error reason => exact .throw rfl

/-! ### Spending -/

theorem idle_noteMarked : Idle (S := S) T (noteMarked client) := .update fun _ hg => hg

theorem idle_completeSpend (p : PendingSpend S) : Idle T (completeSpend client p) := by
  unfold completeSpend
  refine (idle_onUnmarked (CostStore.willing_subtract _ _ _)).bind fun left =>
    .bind (.update fun _ hg => hg) fun _ => ?_
  rcases p.query with _ | id
  case' some => refine Confined.bind (idle_updateQuery id fun _ => rfl) fun _ => ?_
  -- with or without a query, the voucher is queued in the end
  all_goals exact .get_bind fun g hg => .bind (.set hg) fun _ => .ite (.pure _) (.throw rfl)

theorem idle_markSpent (id : VoucherId S) : Idle T (onVouchers (VoucherStore.markSpent id)) :=
  idle_onVouchers (VoucherStore.willing_markSpent id)

theorem idle_spend (v : Voucher S) (query : Option QueryId) : Idle T (spend client v query) :=
  .bind (.update fun _ hg => hg) fun _ => (idle_markSpent v.id).bind fun _ =>
    (idle_noteMarked client).bind fun _ => idle_completeSpend client _

theorem idle_resumeSpend : Idle (S := S) T (resumeSpend client) := by
  refine .get_bind fun g _ => ?_
  have done : ∀ p : PendingSpend S, Idle T (do
      let left ← completeSpend client p
      pure (some left) : Step S (Option Atoms)) := fun p =>
    (idle_completeSpend client p).bind fun _ => .pure _
  cases g.interrupted.get? client with
  | none => exact .pure _
  | some p =>
    dsimp only
    cases p.marked with
    | true => exact done p
    | false =>
      have ensure : Idle T (ensureMarked p.voucher.id) :=
        (idle_onVouchers (VoucherStore.willing_isSpent _)).bind fun _ => .ite (.pure _) (idle_markSpent _)
      exact ensure.bind fun _ => (idle_noteMarked client).bind fun _ => done p

theorem idle_spendCovered (query : Option QueryId) (vs : List (Voucher S)) (unmarked : Atoms) :
    Idle T (spendCovered client query vs unmarked) := by
  induction vs generalizing unmarked with
  | nil => exact .pure _
  | cons v rest ih => exact .ite (.pure _) ((idle_spend client v query).bind fun left => ih left)

theorem idle_absorb (unmarked : Atoms) (query : Option QueryId) :
    Idle (S := S) T (absorb client unmarked query) :=
  (idle_resumeSpend client).bind fun _ => .get_bind fun _ _ => (idle_unspent client _).bind fun vs =>
    idle_spendCovered client query vs _

/-- Only a contradiction is passed on. -/
theorem idle_absorbArrears (arrears : Atoms) : Idle (S := S) T (absorbArrears client arrears) := by
  refine (Confined.attempt (P := Error.NoRefusal) (idle_absorb client arrears none)).bind fun outcome => ?_
  cases outcome with
  | ok _ => exact .pure _
  | error e =>
    dsimp only
    split
    · next hfatal =>
      rcases Error.isFatal_iff.1 hfatal with ⟨cause, rfl⟩ | ⟨halted, rfl⟩ <;> exact .throw rfl
    · exact .pure _

theorem idle_priorNonce : Idle (S := S) T (priorNonce client) :=
  .get_bind fun _ _ => (idle_onVouchers (VoucherStore.willing_latestNonce _ _)).bind fun _ => .pure _

theorem idle_validate (v : Voucher S) (config : CreditConfig) (prior : UInt64) (chain : ChainSnapshot) :
    Idle T (onVouchers (v.validate config vendor prior chain)) := by
  refine idle_onVouchers ?_
  unfold Voucher.validate Voucher.checkVolatile
  split
  · exact .pure _
  · split
    · exact .pure _
    · split
      · exact .pure _
      · exact (VoucherStore.willing_isSpent _).bind fun _ => .ite (.pure _) (.pure _)

/-! ### Queries -/

theorem idle_creditState : Idle T (creditState (S := S) vendor client) :=
  (idle_unspent client vendor).bind fun _ => (idle_readUnmarked client).bind fun _ =>
    (idle_onBalances (CostStore.willing_read _ client)).bind fun _ => .pure _

theorem idle_creditAt (chain : ChainSnapshot) : Idle T (creditAt (S := S) vendor client chain) :=
  (idle_creditState client vendor).bind fun _ => .bind (.view _) fun _ => .pure _

theorem idle_headVoucher : Idle T (headVoucher (S := S) vendor client) := by
  refine (idle_unspent client vendor).bind fun vs => ?_
  cases vs with
  | nil => exact .pure _
  | cons v rest => exact (idle_readUnmarked client).bind fun _ => .pure _

theorem idle_fixCost (q : Query S) (usage : Usage) : Idle T (fixCost q usage) := by
  unfold fixCost
  cases q.actual with
  | some cost => exact .pure cost
  | none => exact .get_bind fun _ _ => .bind (idle_updateQuery q.id fun _ => rfl) fun _ => .pure _

theorem idle_releaseEstimate (q : Query S) : Idle T (releaseEstimate q) := by
  unfold releaseEstimate
  cases q.released with
  | true => exact .pure _
  | false =>
    exact (idle_onBalances (CostStore.willing_subtract _ _ _)).bind fun _ => idle_updateQuery q.id fun _ => rfl

theorem idle_charge (q : Query S) (cost : Atoms) : Idle T (charge q cost) := by
  unfold charge
  have flag : ∀ unmarked : Atoms, Idle T (do
      updateQuery q.id fun q => { q with charged := true }
      pure unmarked : Step S Atoms) := fun _ =>
    .bind (idle_updateQuery q.id fun _ => rfl) fun _ => .pure _
  exact .ite (idle_readUnmarked _)
    (.ite ((idle_onUnmarked (CostStore.willing_add _ _ _)).bind flag) ((idle_readUnmarked _).bind flag))

/-! ### Halts and settlement -/

theorem idle_resumeClient : Idle T (resumeClient (S := S) client) := fun _ hg => hg

theorem idle_onSettlement (f : Settlement S → α × Settlement S) : Idle T (onSettlement f) := fun _ hg => hg

end Gateway
end VoucherGateway
