import VoucherGateway.Proofs.Ledger.Steady
import VoucherGateway.Proofs.Run.Basic

/-!
# Worlds — what clients share outside the ledger

All clients call the same stores and read the same chain.  Calls leave traces there: planned failures are used
up, entries are cached, time passes in pauses.  In a *quiet* world nothing fails and nothing is cached, and no
trace is ever seen again.
-/

namespace VoucherGateway

variable {S : Scheme} {α : Type}

/-- Reads go to the chain itself, and it answers each of them. -/
structure ChainReader.Quiet (r : ChainReader S) : Prop where
  uncached : r.cache = none
  available : r.source.available = true
  answers : ∀ n, r.source.plan.fails n = false

namespace World

/-- Nothing fails, and nothing is cached. -/
structure Quiet (w : World S) : Prop where
  vouchers : w.vouchers.Reliable
  unmarked : w.unmarked.Reliable
  balances : w.balances.Reliable
  chain : w.chain.Quiet

theorem quiet_answering (standings : Table S.Party ChainSnapshot) : (World.answering (S := S) standings).Quiet :=
  have never : ∀ {κ : Type} [DecidableEq κ], (Outage.Reliable (κ := κ) {}) := ⟨rfl, nofun⟩
  ⟨never, never, never, rfl, rfl, fun _ => rfl⟩

/-- Two quiet worlds with the same time and the same standings. -/
structure Twins (w w' : World S) : Prop where
  left : w.Quiet
  right : w'.Quiet
  clock : w'.chain.clock = w.chain.clock
  standing : ∀ c, w'.chain.source.standing c = w.chain.source.standing c

namespace Twins

variable {w w' w'' : World S}

theorem refl (h : w.Quiet) : w.Twins w := ⟨h, h, rfl, fun _ => rfl⟩

theorem symm (h : w.Twins w') : w'.Twins w := ⟨h.right, h.left, h.clock.symm, fun c => (h.standing c).symm⟩

theorem trans (h : w.Twins w') (h' : w'.Twins w'') : w.Twins w'' :=
  ⟨h.left, h'.right, h'.clock.trans h.clock, fun c => (h'.standing c).trans (h.standing c)⟩

/-- Time passes in both. -/
theorem passed (h : w.Twins w') (millis : Nat) :
    Twins { w with chain := { w.chain with clock := w.chain.clock + millis } }
      { w' with chain := { w'.chain with clock := w'.chain.clock + millis } } where
  left := { h.left with chain := ⟨h.left.chain.1, h.left.chain.2, h.left.chain.3⟩ }
  right := { h.right with chain := ⟨h.right.chain.1, h.right.chain.2, h.right.chain.3⟩ }
  clock := congrArg (· + millis) h.clock
  standing := h.standing

/-- A standing changes in both. -/
theorem stood (h : w.Twins w') (client : S.Party) (c : ChainSnapshot) :
    Twins { w with chain := { w.chain with source := w.chain.source.setStanding client c } }
      { w' with chain := { w'.chain with source := w'.chain.source.setStanding client c } } where
  left := { h.left with chain := ⟨h.left.chain.1, h.left.chain.2, h.left.chain.3⟩ }
  right := { h.right with chain := ⟨h.right.chain.1, h.right.chain.2, h.right.chain.3⟩ }
  clock := h.clock
  standing other := by
    have hother := h.standing other
    unfold ChainSource.standing ChainSource.setStanding at *
    rw [Table.get?_put, Table.get?_put]
    split
    · rfl
    · exact hother

end Twins

/-- Worlds that no operation tells apart: the same one, or twins. -/
def Like (w w' : World S) : Prop := w' = w ∨ w.Twins w'

theorem Like.refl (w : World S) : w.Like w := .inl rfl

theorem Like.clock {w w' : World S} (h : w.Like w') : w'.chain.clock = w.chain.clock := by
  rcases h with rfl | h
  · rfl
  · exact h.clock

/-- In twins a step comes to the same outcome, and it leaves a twin. -/
def Heeds (f : World S → Except Error α × World S) : Prop :=
  ∀ w w', w.Twins w' → (f w').1 = (f w).1 ∧ w.Twins (f w).2

theorem Heeds.twins {f : World S → Except Error α × World S} (hf : Heeds f) {w : World S} (h : w.Quiet) :
    w.Twins (f w).2 :=
  (hf w w (.refl h)).2

/-- Worlds that no operation tells apart stay so. -/
theorem Heeds.like {f : World S → Except Error α × World S} (hf : Heeds f) {w w' : World S} (h : w.Like w') :
    (f w').1 = (f w).1 ∧ (f w).2.Like (f w').2 := by
  rcases h with rfl | h
  · exact ⟨rfl, .refl _⟩
  · -- each side is a twin of what it was, and both were twins
    obtain ⟨hout, hleft⟩ := hf w w' h
    exact ⟨hout, .inr (hleft.symm.trans (h.trans (hf.twins h.right)))⟩

end World

/-! ## Calls to the stores and the chain -/

theorem Outage.Reliable.check_eq {κ : Type} [DecidableEq κ] {o : Outage κ} (ho : o.Reliable) (store : String)
    (name : κ → String) (kind : κ) : ∃ o' : Outage κ, o'.Reliable ∧ Outage.check store name kind o = (.ok (), o') := by
  have hends := Outage.Reliable.check store name kind o ho
  unfold Action.run at hends
  rcases hr : Outage.check store name kind o with ⟨e | _, o'⟩ <;> rw [hr] at hends
  · obtain ⟨detail, rfl⟩ := Outage.check_error (congrArg Prod.fst hr)
    exact absurd ⟨detail, rfl⟩ hends.2
  · exact ⟨o', hends, rfl⟩

/-- A quiet reader answers at once. -/
theorem ChainReader.Quiet.run_read {r : ChainReader S} (h : r.Quiet) (client vendor : S.Party) :
    (ChainReader.read client vendor).run ChainReader.elapse r =
      (.ok (r.source.standing client),
        { r with source := { r.source with reads := r.source.reads + 1, plan := r.source.plan.step } }) := by
  have hsource : (ChainReader.read client vendor).run ChainReader.elapse r =
      (ChainReader.readSource client).run ChainReader.elapse r := by
    obtain ⟨clock, source, cache⟩ := r
    obtain rfl : cache = none := h.uncached
    rfl
  have hnow : r.source.plan.failsNow = false := h.answers _
  have hread : ChainSource.read client r.source = (.ok (r.source.standing client),
      { r.source with reads := r.source.reads + 1, plan := r.source.plan.step }) := by
    unfold ChainSource.read
    dsimp only
    rw [if_pos h.available, hnow, if_neg Bool.false_ne_true]
    rfl
  rw [hsource]
  unfold ChainReader.readSource
  rw [Procedure.run_ofAction, Action.run_within]
  unfold Action.run
  rw [hread]

namespace World

/-- A call to the voucher store. -/
def callVouchers (kind : VoucherCall) (w : World S) : Except Error Unit × World S :=
  let r := Outage.check "voucher store" VoucherCall.text kind w.vouchers
  (r.1, { w with vouchers := r.2 })

/-- A call to one of the stores of running costs. -/
def callCosts (which : RunningCost) (kind : CostCall) (w : World S) : Except Error Unit × World S :=
  match which with
  | .unmarked =>
    let r := Outage.check CostBook.unmarked.name CostBook.unmarked.callText kind w.unmarked
    (r.1, { w with unmarked := r.2 })
  | .locked =>
    let r := Outage.check CostBook.balances.name CostBook.balances.callText kind w.balances
    (r.1, { w with balances := r.2 })

/-- A read of the chain. -/
def readChain (client vendor : S.Party) (w : World S) : Except Error ChainSnapshot × World S :=
  let r := (ChainReader.read client vendor).run ChainReader.elapse w.chain
  (r.1.mapError .chainUnavailable, { w with chain := r.2 })

theorem heeds_callVouchers (kind : VoucherCall) : Heeds (callVouchers (S := S) kind) := by
  intro w w' h
  obtain ⟨o, ho, hr⟩ := h.left.vouchers.check_eq "voucher store" VoucherCall.text kind
  obtain ⟨o', -, hr'⟩ := h.right.vouchers.check_eq "voucher store" VoucherCall.text kind
  unfold callVouchers
  rw [hr, hr']
  exact ⟨rfl, h.left, { h.left with vouchers := ho }, rfl, fun _ => rfl⟩

theorem heeds_callCosts (which : RunningCost) (kind : CostCall) : Heeds (callCosts (S := S) which kind) := by
  intro w w' h
  cases which with
  | unmarked =>
    obtain ⟨o, ho, hr⟩ := h.left.unmarked.check_eq CostBook.unmarked.name CostBook.unmarked.callText kind
    obtain ⟨o', -, hr'⟩ := h.right.unmarked.check_eq CostBook.unmarked.name CostBook.unmarked.callText kind
    unfold callCosts
    simp only [hr, hr']
    exact ⟨trivial, h.left, { h.left with unmarked := ho }, rfl, fun _ => rfl⟩
  | locked =>
    obtain ⟨o, ho, hr⟩ := h.left.balances.check_eq CostBook.balances.name CostBook.balances.callText kind
    obtain ⟨o', -, hr'⟩ := h.right.balances.check_eq CostBook.balances.name CostBook.balances.callText kind
    unfold callCosts
    simp only [hr, hr']
    exact ⟨trivial, h.left, { h.left with balances := ho }, rfl, fun _ => rfl⟩

theorem heeds_readChain (client vendor : S.Party) : Heeds (readChain (S := S) client vendor) := by
  intro w w' h
  unfold readChain
  rw [h.left.chain.run_read, h.right.chain.run_read]
  refine ⟨congrArg Except.ok (h.standing client), h.left, { h.left with chain := ?_ }, rfl, fun _ => rfl⟩
  exact ⟨h.left.chain.uncached, h.left.chain.available, h.left.chain.answers⟩

end World
end VoucherGateway
