import Mathlib.Algebra.Order.BigOperators.Group.List
import Mathlib.Algebra.Order.Ring.Nat
import Mathlib.Data.List.Nodup
import VoucherGateway.Table

/-!
# Keyed — tables with one row for each key

A table that starts empty and is only put to, erased from and thinned out never has two rows of one key.
In such a table, reading a key and finding its row are the same.
-/

namespace VoucherGateway
namespace Table

variable {κ ν : Type}

/-- No key has two rows. -/
def Keyed (t : Table κ ν) : Prop := (t.rows.map (·.1)).Nodup

variable {t : Table κ ν}

theorem Keyed.keep (h : t.Keyed) (p : κ → ν → Bool) : (t.keep p).Keyed :=
  h.sublist (List.filter_sublist.map _)

variable [DecidableEq κ]

theorem Keyed.erase (h : t.Keyed) (k : κ) : (t.erase k).Keyed :=
  h.sublist (List.filter_sublist.map _)

theorem get?_eq_none_iff {k : κ} : t.get? k = none ↔ k ∉ t.rows.map (·.1) := by
  simp only [get?, Option.map_eq_none_iff, List.find?_eq_none, List.mem_map, not_exists, not_and,
    decide_eq_true_eq]

theorem mem_of_get? {k : κ} {v : ν} (h : t.get? k = some v) : (k, v) ∈ t.rows := by
  obtain ⟨r, hr, rfl⟩ := Option.map_eq_some_iff.mp h
  have hk : r.1 = k := by simpa using List.find?_some hr
  exact hk ▸ List.mem_of_find?_eq_some hr

theorem Keyed.get?_of_mem (h : t.Keyed) {k : κ} {v : ν} (hm : (k, v) ∈ t.rows) : t.get? k = some v := by
  cases hk : t.get? k with
  | none => exact absurd (List.mem_map_of_mem hm) (get?_eq_none_iff.mp hk)
  | some w =>
    have hrow := List.inj_on_of_nodup_map h (mem_of_get? hk) hm rfl
    rw [(Prod.mk.inj hrow).2]

theorem Keyed.mem_rows_iff (h : t.Keyed) {k : κ} {v : ν} : (k, v) ∈ t.rows ↔ t.get? k = some v :=
  ⟨h.get?_of_mem, mem_of_get?⟩

theorem Keyed.get?_keep (h : t.Keyed) (p : κ → ν → Bool) (k : κ) :
    (t.keep p).get? k = (t.get? k).filter (p k) := by
  ext v
  rw [← (h.keep p).mem_rows_iff, Option.filter_eq_some_iff, ← h.mem_rows_iff]
  exact List.mem_filter

/-- A new key goes to the end. -/
theorem putRow_of_absent {k : κ} (v : ν) {rows : List (κ × ν)} (h : k ∉ rows.map (·.1)) :
    putRow k v rows = rows ++ [(k, v)] := by
  induction rows with
  | nil => rfl
  | cons r rs ih =>
    simp only [List.map_cons, List.mem_cons, not_or] at h
    simp [putRow, Ne.symm h.1, ih h.2]

/-- Writing a key that is there changes no key. -/
theorem keys_putRow_of_present {k : κ} (v : ν) {rows : List (κ × ν)} (h : k ∈ rows.map (·.1)) :
    (putRow k v rows).map (·.1) = rows.map (·.1) := by
  induction rows with
  | nil => cases h
  | cons r rs ih =>
    by_cases hr : r.1 = k
    · simp [putRow, hr]
    · have hrs := (List.mem_cons.mp h).resolve_left (Ne.symm hr)
      simp [putRow, hr, ih hrs]

theorem put_put (t : Table κ ν) (k : κ) (v w : ν) : (t.put k v).put k w = t.put k w := by
  obtain ⟨rows⟩ := t
  simp only [put]
  congr 1
  induction rows with
  | nil => simp [putRow]
  | cons r rs ih => by_cases hr : r.1 = k <;> simp [putRow, hr, ih]

theorem Keyed.put (h : t.Keyed) (k : κ) (v : ν) : (t.put k v).Keyed := by
  unfold Keyed Table.put
  by_cases hk : k ∈ t.rows.map (·.1)
  · rw [keys_putRow_of_present v hk]
    exact h
  · rw [putRow_of_absent v hk, List.map_append]
    exact List.nodup_append_comm.mp (List.nodup_cons.mpr ⟨hk, h⟩)

/-! ## Sums over the rows -/

theorem sum_put {k : κ} {v : ν} (h : t.get? k = some v) (w : ν) (f : ν → Nat) :
    ((t.put k w).rows.map (f ·.2)).sum + f v = (t.rows.map (f ·.2)).sum + f w := by
  obtain ⟨rows⟩ := t
  simp only [put]
  induction rows with
  | nil => cases h
  | cons r rs ih =>
    by_cases hr : r.1 = k
    · obtain rfl : r.2 = v := by simpa [get?, hr] using h
      simp only [putRow, hr, if_true, List.map_cons, List.sum_cons]
      omega
    · have hrest := ih (by simpa [get?, hr] using h)
      simp only [putRow, hr, if_false, List.map_cons, List.sum_cons]
      omega

theorem sum_erase {k : κ} {v : ν} (h : t.get? k = some v) (f : ν → Nat) :
    ((t.erase k).rows.map (f ·.2)).sum + f v ≤ (t.rows.map (f ·.2)).sum := by
  obtain ⟨rows⟩ := t
  simp only [erase]
  induction rows with
  | nil => cases h
  | cons r rs ih =>
    by_cases hr : r.1 = k
    · obtain rfl : r.2 = v := by simpa [get?, hr] using h
      have hle : ((rs.filter (·.1 ≠ k)).map (f ·.2)).sum ≤ (rs.map (f ·.2)).sum :=
        (List.filter_sublist.map _).sum_le_sum fun _ _ => Nat.zero_le _
      rw [List.filter_cons_of_neg (by simp [hr]), List.map_cons, List.sum_cons]
      omega
    · have hrest := ih (by simpa [get?, hr] using h)
      rw [List.filter_cons_of_pos (by simp [hr]), List.map_cons, List.sum_cons, List.map_cons, List.sum_cons]
      omega

end Table
end VoucherGateway
