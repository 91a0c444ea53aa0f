/-!
# QueryState — the life cycle of a query

A query is created pending, becomes locked once its estimate is reserved, and ends settled or aborted.
-/

namespace VoucherGateway

/-- Where a query stands. -/
inductive QueryState
  | pending
  | locked
  | settled
  | aborted
  deriving DecidableEq, Repr

namespace QueryState

/-- The name of a state. -/
def text : QueryState → String
  | .pending => "pending"
  | .locked => "locked"
  | .settled => "settled"
  | .aborted => "aborted"

/-- No move leaves a final state. -/
def isFinal : QueryState → Bool
  | .settled | .aborted => true
  | _ => false

/-- The moves of the life cycle. -/
def canMoveTo : QueryState → QueryState → Bool
  | .pending, .locked | .locked, .settled | .locked, .aborted => true
  | _, _ => false

/-- Every state, in the order of the life cycle. -/
def all : List QueryState := [.pending, .locked, .settled, .aborted]

theorem canMoveTo_eq_false_of_isFinal {s t : QueryState} (h : s.isFinal = true) :
    s.canMoveTo t = false := by
  cases s <;> cases t <;> simp_all [isFinal, canMoveTo]

end QueryState
end VoucherGateway
