/-!
# Wait — what operations wait for

An operation may pause for a while, or wait for its turn with a client.
-/

namespace VoucherGateway

/-- What an operation on clients `κ` waits for. -/
inductive Wait (κ : Type)
  /-- The time itself, in milliseconds. -/
  | pause (millis : Nat)
  /-- The lock of a client. -/
  | turn (client : κ)
  deriving DecidableEq, Repr

/-- The longest pause that anybody makes: thirty years of 365 days, in milliseconds. -/
def longestPause : Nat := 946080000000

/-- How long a pause of a length lasts. -/
def pauseLength (millis : Nat) : Nat := min millis longestPause

theorem pauseLength_of_le {millis : Nat} (h : millis ≤ longestPause) : pauseLength millis = millis :=
  Nat.min_eq_left h

end VoucherGateway
