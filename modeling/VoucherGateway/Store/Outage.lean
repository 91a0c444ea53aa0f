import VoucherGateway.Action
import VoucherGateway.Error
import VoucherGateway.Table

/-!
# Outage — when a store does not answer

A store can be switched off as a whole, and each kind of call to it can be given a plan that says which of
the coming calls fail.  Plans are arbitrary, so every pattern of failures inside one operation can occur.
-/

namespace VoucherGateway

/-- Which of the coming calls of one kind fail. -/
structure OutagePlan where
  /-- Calls made since the plan was set. -/
  calls : Nat := 0
  /-- Whether the call of a number fails. -/
  fails : Nat → Bool := fun _ => false

namespace OutagePlan

/-- The next `n` calls fail. -/
def next (n : Nat) : OutagePlan := ⟨0, fun i => decide (i < n)⟩

/-- Whether the call to be made now fails. -/
def failsNow (p : OutagePlan) : Bool := p.fails p.calls

/-- The plan after a call. -/
def step (p : OutagePlan) : OutagePlan := { p with calls := p.calls + 1 }

end OutagePlan

/-- When a store with calls of the kinds `κ` does not answer. -/
structure Outage (κ : Type) where
  available : Bool := true
  plans : Table κ OutagePlan := {}

namespace Outage

variable {κ : Type} [DecidableEq κ]

/-- Plans the coming calls of a kind, in place of what was planned for it. -/
def plan (o : Outage κ) (kind : κ) (p : OutagePlan) : Outage κ := { o with plans := o.plans.put kind p }

/-- A call of a kind: an error if the store does not answer, and the outage afterwards. -/
def check (store : String) (name : κ → String) (kind : κ) : Action (Outage κ) Error Unit := fun o =>
  if o.available then
    match o.plans.get? kind with
    | none => (.ok (), o)
    | some p =>
      -- the plan counts a call whether it fails or not
      let o' := o.plan kind p.step
      if p.failsNow then
        (.error (.storeUnavailable ("injected " ++ name kind ++ " failure in " ++ store)), o')
      else (.ok (), o')
  else (.error (.storeUnavailable (store ++ " offline")), o)

/-- A call that fails does so because the store is unavailable. -/
theorem check_error {store : String} {name : κ → String} {kind : κ} {o : Outage κ} {e : Error}
    (h : (check store name kind o).1 = .error e) : ∃ detail, e = .storeUnavailable detail := by
  unfold check at h
  split at h
  · split at h
    · cases h
    · dsimp only at h
      split at h <;> cases h
      exact ⟨_, rfl⟩
  · cases h; exact ⟨_, rfl⟩

end Outage
end VoucherGateway
