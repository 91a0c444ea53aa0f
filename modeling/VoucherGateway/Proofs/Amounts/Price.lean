import Mathlib.Algebra.Order.Floor.Semifield
import Mathlib.Data.Rat.Floor
import VoucherGateway.Price

/-!
# Prices — where sums and products stop does not show

A price is computed in words of 128 bits, in which products stop at the largest one, and it ends as an amount,
which stops at the largest amount.  A product stops only where the exact price is beyond every amount anyway, so
a price is the exact one, or the largest amount if that is smaller.

Main statement: `cost_exact`.
-/

namespace VoucherGateway

/-! ## Rounding -/

/-- A fraction, rounded to a whole number. -/
def Rounding.whole : Rounding → ℚ → ℕ
  | .up, x => ⌈x⌉₊
  | .down, x => ⌊x⌋₊

namespace Rounding

variable {r : Rounding} {x y : ℚ}

theorem whole_le_whole (r : Rounding) (h : x ≤ y) : r.whole x ≤ r.whole y := by
  cases r with
  | up => exact Nat.ceil_mono h
  | down => exact Nat.floor_mono h

theorem whole_natCast (r : Rounding) (n : ℕ) : r.whole n = n := by
  cases r with
  | up => exact Nat.ceil_natCast n
  | down => exact Nat.floor_natCast n

/-- Rounding up adds less than one. -/
theorem whole_down_le_up (x : ℚ) : down.whole x ≤ up.whole x ∧ up.whole x ≤ down.whole x + 1 :=
  ⟨Nat.floor_le_ceil x, Nat.ceil_le_floor_add_one x⟩

end Rounding

namespace PriceSchedule

/-! ## One part of a price -/

/-- A part of a price is a rounded fraction, but for the product. -/
theorem scale_eq_whole (r : Rounding) (amount rate : ℕ) {unit : ℕ} (hunit : 0 < unit) :
    scale r amount rate unit = r.whole (wideProduct amount rate / unit) := by
  cases r with
  | up =>
    symm
    refine eq_of_forall_ge_iff fun n => ?_
    have hpos : (0 : ℚ) < unit := Nat.cast_pos.mpr hunit
    change ⌈(wideProduct amount rate : ℚ) / unit⌉₊ ≤ n ↔ (wideProduct amount rate + (unit - 1)) / unit ≤ n
    rw [Nat.ceil_le, div_le_iff₀ hpos, Nat.div_le_iff_le_mul_add_pred hunit]
    norm_cast
    rw [Nat.mul_comm n unit]
    omega
  | down => exact (Nat.floor_div_eq_div _ _).symm

/-- The product stops only where the price is beyond every amount. -/
theorem min_whole_wideProduct (r : Rounding) (amount rate : ℕ) {unit : ℕ} (hunit : 0 < unit)
    (hle : unit ≤ 0x8000000000000000) :
    min (r.whole (wideProduct amount rate / unit)) 0xFFFFFFFFFFFFFFFF =
      min (r.whole (amount * rate / unit)) 0xFFFFFFFFFFFFFFFF := by
  have hpos : (0 : ℚ) < unit := Nat.cast_pos.mpr hunit
  by_cases hfits : amount * rate ≤ (1 <<< 128) - 1
  · have hsame : wideProduct amount rate = amount * rate := Nat.min_eq_left hfits
    rw [hsame, Nat.cast_mul]
  · have hstops : wideProduct amount rate = (1 <<< 128) - 1 := Nat.min_eq_right (by omega)
    -- where the product stops, even the product that stops is worth the largest amount
    have hlarge : 0xFFFFFFFFFFFFFFFF ≤ r.whole (wideProduct amount rate / unit) := by
      rw [← r.whole_natCast 0xFFFFFFFFFFFFFFFF]
      refine r.whole_le_whole ((le_div_iff₀ hpos).mpr ?_)
      rw [hstops]
      norm_cast
      omega
    have hmore : r.whole (wideProduct amount rate / unit) ≤ r.whole (amount * rate / unit) := by
      refine r.whole_le_whole (div_le_div_of_nonneg_right ?_ hpos.le)
      exact_mod_cast Nat.min_le_left (amount * rate) _
    rw [Nat.min_eq_right hlarge, Nat.min_eq_right (hlarge.trans hmore)]

/-! ## Prices -/

/-- What usage costs when nothing stops. -/
def exactCost (p : PriceSchedule) (u : Usage) : ℕ :=
  p.rounding.whole (u.millis * p.hourPrice.toNat / 3600000) +
    p.rounding.whole (u.bytes.toNat * p.gigabytePrice.toNat / 1000000000)

/-- A price is the exact one, or the largest amount if that is smaller. -/
theorem toNat_cost (p : PriceSchedule) (u : Usage) :
    (p.cost u).toNat = min (p.exactCost u) 0xFFFFFFFFFFFFFFFF := by
  have hhours := min_whole_wideProduct p.rounding u.millis p.hourPrice.toNat
    (show 0 < millisPerHour by decide) (by decide)
  have hgigabytes := min_whole_wideProduct p.rounding u.bytes.toNat p.gigabytePrice.toNat
    (show 0 < bytesPerGigabyte by decide) (by decide)
  rw [cost, Atoms.toNat_ofNatCapped, scale_eq_whole _ _ _ (by decide), scale_eq_whole _ _ _ (by decide)]
  have hmillis : ((millisPerHour : ℕ) : ℚ) = 3600000 := rfl
  have hbytes : ((bytesPerGigabyte : ℕ) : ℚ) = 1000000000 := rfl
  rw [hmillis] at hhours ⊢
  rw [hbytes] at hgigabytes ⊢
  unfold exactCost
  omega

/-- More usage at higher prices does not cost less. -/
theorem exactCost_le_exactCost {p q : PriceSchedule} {u v : Usage} (hrounding : q.rounding = p.rounding)
    (hhour : p.hourPrice ≤ q.hourPrice) (hgigabyte : p.gigabytePrice ≤ q.gigabytePrice)
    (hmillis : u.millis ≤ v.millis) (hbytes : u.bytes ≤ v.bytes) : p.exactCost u ≤ q.exactCost v := by
  have hhour : (p.hourPrice.toNat : ℚ) ≤ q.hourPrice.toNat := Nat.cast_le.mpr hhour
  have hgigabyte : (p.gigabytePrice.toNat : ℚ) ≤ q.gigabytePrice.toNat := Nat.cast_le.mpr hgigabyte
  have hmillis : (u.millis : ℚ) ≤ v.millis := Nat.cast_le.mpr hmillis
  have hbytes : (u.bytes.toNat : ℚ) ≤ v.bytes.toNat := Nat.cast_le.mpr hbytes
  unfold exactCost
  rw [hrounding]
  refine Nat.add_le_add ?_ ?_
  · apply p.rounding.whole_le_whole
    gcongr
  · apply p.rounding.whole_le_whole
    gcongr

/-- Rounding up costs at most one atom more for each part. -/
theorem exactCost_down_le_up (p : PriceSchedule) (u : Usage) :
    exactCost { p with rounding := .down } u ≤ exactCost { p with rounding := .up } u ∧
      exactCost { p with rounding := .up } u ≤ exactCost { p with rounding := .down } u + 2 := by
  have hhours := Rounding.whole_down_le_up (u.millis * p.hourPrice.toNat / 3600000)
  have hgigabytes := Rounding.whole_down_le_up (u.bytes.toNat * p.gigabytePrice.toNat / 1000000000)
  dsimp only [exactCost]
  omega

/-- What thousandths of an hour and megabytes cost when nothing stops. -/
def exactCostOf (p : PriceSchedule) (millihours megabytes : UInt64) : ℕ :=
  p.rounding.whole (millihours.toNat * p.hourPrice.toNat / 1000) +
    p.rounding.whole (megabytes.toNat * p.gigabytePrice.toNat / 1000)

/-- Measured in larger units, usage costs the same as long as it can be written in the smaller ones. -/
theorem exactCost_ofMillihoursAndMegabytes (p : PriceSchedule) (h g : UInt64) :
    p.exactCost (.ofMillihoursAndMegabytes h g) ≤ p.exactCostOf h g ∧
      (3600 * h.toNat ≤ 0xFFFFFFFFFFFFFFFF → 1000000 * g.toNat ≤ 0xFFFFFFFFFFFFFFFF →
        p.exactCost (.ofMillihoursAndMegabytes h g) = p.exactCostOf h g) := by
  have hmillis : (Usage.ofMillihoursAndMegabytes h g).millis = min (h.toNat * 3600) 0xFFFFFFFFFFFFFFFF :=
    Atoms.toNat_times h 3600
  have hbytes : (Usage.ofMillihoursAndMegabytes h g).bytes.toNat = min (g.toNat * 1000000) 0xFFFFFFFFFFFFFFFF :=
    Atoms.toNat_times g 1000000
  have hhours : ((h.toNat * 3600 : ℕ) : ℚ) * p.hourPrice.toNat / 3600000 =
      h.toNat * p.hourPrice.toNat / 1000 := by
    push_cast
    ring
  have hgigabytes : ((g.toNat * 1000000 : ℕ) : ℚ) * p.gigabytePrice.toNat / 1000000000 =
      g.toNat * p.gigabytePrice.toNat / 1000 := by
    push_cast
    ring
  unfold exactCost exactCostOf
  rw [hmillis, hbytes, ← hhours, ← hgigabytes]
  refine ⟨Nat.add_le_add ?_ ?_, fun hh hg => ?_⟩
  · apply p.rounding.whole_le_whole
    gcongr
    exact Nat.min_le_left ..
  · apply p.rounding.whole_le_whole
    gcongr
    exact Nat.min_le_left ..
  · rw [Nat.min_eq_left (by omega), Nat.min_eq_left (by omega)]

/-- Whatever the usage and the prices, a price is the exact one, or the largest amount if that is smaller.  It
does not fall when usage or prices rise, rounding up adds two atoms at most, and usage that is measured in
thousandths of an hour and megabytes never costs more than these are worth: as much, as long as it can be written
in milliseconds and bytes. -/
theorem cost_exact (p : PriceSchedule) (u : Usage) :
    (p.cost u).toNat = min (p.exactCost u) 0xFFFFFFFFFFFFFFFF ∧
    (∀ (q : PriceSchedule) (v : Usage), q.rounding = p.rounding → p.hourPrice ≤ q.hourPrice →
      p.gigabytePrice ≤ q.gigabytePrice → u.millis ≤ v.millis → u.bytes ≤ v.bytes → p.cost u ≤ q.cost v) ∧
    (cost { p with rounding := .down } u ≤ cost { p with rounding := .up } u ∧
      (cost { p with rounding := .up } u).toNat ≤ (cost { p with rounding := .down } u).toNat + 2) ∧
    ∀ h g : UInt64,
      (p.cost (.ofMillihoursAndMegabytes h g)).toNat ≤ min (p.exactCostOf h g) 0xFFFFFFFFFFFFFFFF ∧
      (3600 * h.toNat ≤ 0xFFFFFFFFFFFFFFFF → 1000000 * g.toNat ≤ 0xFFFFFFFFFFFFFFFF →
        (p.cost (.ofMillihoursAndMegabytes h g)).toNat = min (p.exactCostOf h g) 0xFFFFFFFFFFFFFFFF) := by
  refine ⟨p.toNat_cost u, fun q v hrounding hhour hgigabyte hmillis hbytes => ?_, ⟨?_, ?_⟩, fun h g => ?_⟩
  · have hexact := exactCost_le_exactCost hrounding hhour hgigabyte hmillis hbytes
    rw [UInt64.le_iff_toNat_le, toNat_cost, toNat_cost]
    omega
  · have hexact := (exactCost_down_le_up p u).1
    rw [UInt64.le_iff_toNat_le, toNat_cost, toNat_cost]
    omega
  · have hexact := (exactCost_down_le_up p u).2
    rw [toNat_cost, toNat_cost]
    omega
  · obtain ⟨hle, heq⟩ := exactCost_ofMillihoursAndMegabytes p h g
    rw [toNat_cost]
    exact ⟨by omega, fun hh hg => by rw [heq hh hg]⟩

end PriceSchedule
end VoucherGateway
