/-!
# Atoms — amounts of value

Amounts are 64-bit words.  Sums that must be exact go through `add?` and `sub?`, which refuse to leave
the range; estimates go through `plus`, `minus` and `total`, which stop at its ends.  Every operation is
described by what it does to `UInt64.toNat`.
-/

namespace VoucherGateway

/-- An amount of value, in the smallest unit. -/
abbrev Atoms := UInt64

namespace Atoms

/-- The largest amount. -/
def top : Atoms := 0xFFFFFFFFFFFFFFFF

/-- A number as an amount, the largest amount if it is out of range. -/
def ofNatCapped (n : Nat) : Atoms :=
  if n ≤ 0xFFFFFFFFFFFFFFFF then UInt64.ofNat n else top

/-- Sum that stops at the largest amount. -/
def plus (a b : Atoms) : Atoms := ofNatCapped (a.toNat + b.toNat)

/-- Difference that stops at zero. -/
def minus (a b : Atoms) : Atoms := if b ≤ a then a - b else 0

/-- Product that stops at the largest amount. -/
def times (a b : Atoms) : Atoms := ofNatCapped (a.toNat * b.toNat)

/-- Exact sum, absent when it does not fit. -/
def add? (a b : Atoms) : Option Atoms :=
  if a.toNat + b.toNat ≤ 0xFFFFFFFFFFFFFFFF then some (a + b) else none

/-- Exact difference, absent when it would be negative. -/
def sub? (a b : Atoms) : Option Atoms :=
  if b ≤ a then some (a - b) else none

/-- Sum of a list that stops at the largest amount. -/
def total (amounts : List Atoms) : Atoms := amounts.foldl plus 0

/-! ## Effect on the underlying number -/

theorem toNat_top : top.toNat = 0xFFFFFFFFFFFFFFFF := rfl

theorem toNat_le_top (a : Atoms) : a.toNat ≤ 0xFFFFFFFFFFFFFFFF := Nat.le_of_lt_succ a.toNat_lt_size

@[simp] theorem toNat_ofNatCapped (n : Nat) : (ofNatCapped n).toNat = min n 0xFFFFFFFFFFFFFFFF := by
  unfold ofNatCapped
  split
  · rw [UInt64.toNat_ofNat']; omega
  · rw [toNat_top]; omega

@[simp] theorem toNat_plus (a b : Atoms) : (plus a b).toNat = min (a.toNat + b.toNat) 0xFFFFFFFFFFFFFFFF := by
  simp [plus]

@[simp] theorem toNat_times (a b : Atoms) :
    (times a b).toNat = min (a.toNat * b.toNat) 0xFFFFFFFFFFFFFFFF := by
  simp [times]

theorem toNat_sub_of_le {a b : Atoms} (h : b ≤ a) : (a - b).toNat = a.toNat - b.toNat :=
  UInt64.toNat_sub_of_le a b h

@[simp] theorem toNat_minus (a b : Atoms) : (minus a b).toNat = a.toNat - b.toNat := by
  unfold minus
  split
  · exact toNat_sub_of_le ‹_›
  · have : a.toNat < b.toNat := by
      simpa [UInt64.le_iff_toNat_le] using ‹¬ b ≤ a›
    simp; omega

theorem add?_eq_some_iff {a b c : Atoms} : add? a b = some c ↔ a.toNat + b.toNat = c.toNat := by
  unfold add?
  have hc := toNat_le_top c
  split
  · rename_i h
    have hab : (a + b).toNat = a.toNat + b.toNat := by
      rw [UInt64.toNat_add]; exact Nat.mod_eq_of_lt (by omega)
    constructor
    · intro e; cases e; exact hab.symm
    · intro e; congr 1; exact UInt64.toNat_inj.1 (by omega)
  · constructor
    · intro e; cases e
    · intro e; omega

theorem add?_eq_none_iff {a b : Atoms} : add? a b = none ↔ 0xFFFFFFFFFFFFFFFF < a.toNat + b.toNat := by
  unfold add?; split <;> simp <;> omega

theorem sub?_eq_some_iff {a b c : Atoms} : sub? a b = some c ↔ a.toNat = c.toNat + b.toNat := by
  unfold sub?
  split
  · rename_i h
    have hab := toNat_sub_of_le h
    have hle := UInt64.le_iff_toNat_le.1 h
    constructor
    · intro e; cases e; omega
    · intro e; congr 1; exact UInt64.toNat_inj.1 (by omega)
  · rename_i h
    have hlt : a.toNat < b.toNat := by simpa [UInt64.le_iff_toNat_le] using h
    constructor
    · intro e; cases e
    · intro e; omega

theorem sub?_eq_none_iff {a b : Atoms} : sub? a b = none ↔ a.toNat < b.toNat := by
  unfold sub?; split <;> simp_all [UInt64.le_iff_toNat_le]

end Atoms
end VoucherGateway
