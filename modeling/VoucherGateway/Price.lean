import VoucherGateway.Atoms

/-!
# Price — what usage costs

Usage is time worked, in whole milliseconds, and bytes returned.  Each part is priced and rounded on its
own, and the sum stops at the largest amount.
-/

namespace VoucherGateway

/-- What becomes of a fraction of an atom. -/
inductive Rounding
  | up
  | down
  deriving DecidableEq, Repr

/-- Work done for a query. -/
structure Usage where
  /-- Whole milliseconds of work. -/
  millis : Nat := 0
  /-- Bytes returned. -/
  bytes : UInt64 := 0
  deriving DecidableEq, Repr

namespace Usage

/-- Usage measured in thousandths of an hour and in megabytes. -/
def ofMillihoursAndMegabytes (millihours megabytes : UInt64) : Usage :=
  ⟨(Atoms.times millihours 3600).toNat, Atoms.times megabytes 1000000⟩

/-- Usage measured in seconds, nanoseconds and bytes.  Nanoseconds carry into seconds. -/
def ofSecondsAndNanos (seconds nanos bytes : UInt64) : Usage :=
  ⟨(seconds.toNat * 1000000000 + nanos.toNat) / 1000000, bytes⟩

end Usage

/-- Prices in atoms. -/
structure PriceSchedule where
  hourPrice : Atoms := 0
  gigabytePrice : Atoms := 0
  rounding : Rounding := .up
  deriving DecidableEq, Repr

/-- Milliseconds in an hour. -/
def millisPerHour : Nat := 3600000

/-- Bytes in a gigabyte. -/
def bytesPerGigabyte : Nat := 1000000000

namespace PriceSchedule

/-- Product in the range of 128-bit words, which stops at its end. -/
def wideProduct (a b : Nat) : Nat := min (a * b) ((1 <<< 128) - 1)

/-- The price of an amount at a rate per unit. -/
def scale (rounding : Rounding) (amount rate unit : Nat) : Nat :=
  match rounding with
  | .down => wideProduct amount rate / unit
  | .up => (wideProduct amount rate + (unit - 1)) / unit

/-- What usage costs. -/
def cost (p : PriceSchedule) (u : Usage) : Atoms :=
  Atoms.ofNatCapped
    (scale p.rounding u.millis p.hourPrice.toNat millisPerHour +
      scale p.rounding u.bytes.toNat p.gigabytePrice.toNat bytesPerGigabyte)

end PriceSchedule
end VoucherGateway
