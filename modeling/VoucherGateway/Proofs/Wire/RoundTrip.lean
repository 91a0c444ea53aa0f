import Mathlib.Algebra.Order.Ring.Nat
import VoucherGateway.MessagePack.Decoder

/-!
# Round trips — what is written reads back

A writer and a reader fit together if the reader finds what was written whatever follows it, and leaves what
follows alone (`Reads`).  Numbers and array headers have several forms, depending on their size; a reader of
values has to tell them apart by their first byte.

Main statements: `reads_encodeNat`, `reads_array` and `reads_encodeBytes`.
-/

namespace VoucherGateway
namespace MessagePack

variable {α ι : Type}

/-- In front of whatever follows, these bytes are read as this. -/
def Reads (read : Bytes → Option (α × Bytes)) (bytes : Bytes) (a : α) : Prop :=
  ∀ rest, read (bytes ++ rest) = some (a, rest)

theorem reads_takeNat {width n : Nat} (h : n < Bytes.capacity width) :
    Reads (takeNat width) (Bytes.bigEndian width n) n := by
  intro rest
  simp [takeNat, takeBytes, List.splitAt_eq, Bytes.ofBigEndian_bigEndian h]

/-! ## Heads -/

/-- The head that is all of a number. -/
def Head.number (n : Nat) : Head := .scalar (.unsigned n)

theorem reads_counted (width : Nat) (make : Nat → Head) {n : Nat} (h : n < Bytes.capacity width) :
    Reads (fun input => (takeNat width input).map fun r => (make r.1, r.2)) (Bytes.bigEndian width n)
      (make n) := by
  intro rest
  simp only [reads_takeNat h rest, Option.map_some]

/-- A number is read in whichever form it was written. -/
theorem reads_encodeNat {n : Nat} (h : n < 2 ^ 64) :
    Reads readHead (encodeNat n) (.number n) := by
  intro rest
  unfold encodeNat
  split
  · next hn =>
    have hfirst : (UInt8.ofNat n).toNat = n := UInt8.toNat_ofNat_of_lt' (Nat.lt_trans hn (by decide))
    simp only [List.cons_append, List.nil_append, readHead, hfirst, if_pos hn, Head.number]
  -- the longer forms begin with a byte of their own
  · split
    · next hn => exact reads_counted 1 .number hn rest
    · split
      · next hn => exact reads_counted 2 .number hn rest
      · split
        · next hn => exact reads_counted 4 .number hn rest
        · exact reads_counted 8 .number h rest

/-- And so is the header of an array. -/
theorem reads_encodeArrayHeader {n : Nat} (h : n < 2 ^ 32) :
    Reads readHead (encodeArrayHeader n) (.items n) := by
  intro rest
  unfold encodeArrayHeader
  split
  · next hn =>
    have hbyte : 0x90 + n < 256 := by omega
    have hfirst : (UInt8.ofNat (0x90 + n)).toNat = 0x90 + n := UInt8.toNat_ofNat_of_lt' hbyte
    have hnumber : ¬ 0x90 + n < 0x80 := by omega
    have hmap : ¬ 0x90 + n < 0x90 := by omega
    have harray : 0x90 + n < 0xA0 := by omega
    simp only [List.cons_append, List.nil_append, readHead, hfirst, if_neg hnumber, if_neg hmap, if_pos harray,
      Nat.add_sub_cancel_left]
  · split
    · next hn => exact reads_counted 2 .items hn rest
    · exact reads_counted 4 .items h rest

/-! ## Values -/

/-- A scalar is a value at any depth. -/
theorem Reads.scalar {bytes : Bytes} {v : Value} (h : Reads readHead bytes (.scalar v)) (hv : v ≠ .extension)
    (depth : Nat) : Reads (read depth) bytes v := by
  intro rest
  cases depth with
  | succ depth => simp only [read, h rest]
  | zero =>
    cases v with
    | extension => exact absurd rfl hv
    | _ => simp only [read, h rest]

theorem reads_number {n : Nat} (h : n < 2 ^ 64) (depth : Nat) :
    Reads (read depth) (encodeNat n) (.unsigned n) := by
  have hkind : Value.unsigned n ≠ .extension := by simp
  exact (reads_encodeNat h).scalar hkind depth

/-- What is written in a row is read in a row. -/
theorem reads_readMany {read : Bytes → Option (α × Bytes)} {bytes : ι → Bytes} {a : ι → α} {xs : List ι}
    (h : ∀ x ∈ xs, Reads read (bytes x) (a x)) :
    Reads (readMany read xs.length) (xs.flatMap bytes) (xs.map a) := by
  induction xs with
  | nil => exact fun _ => rfl
  | cons x xs ih =>
    intro rest
    have hfirst := h x List.mem_cons_self (xs.flatMap bytes ++ rest)
    have hrest := ih (fun y hy => h y (List.mem_cons_of_mem x hy)) rest
    simp only [List.length_cons, List.flatMap_cons, List.append_assoc, readMany, hfirst, hrest, List.map_cons]

/-- An array is read if its items are. -/
theorem reads_array {bytes : ι → Bytes} {v : ι → Value} {xs : List ι} {depth : Nat}
    (hlength : xs.length < 2 ^ 32) (h : ∀ x ∈ xs, Reads (read depth) (bytes x) (v x)) :
    Reads (read (depth + 1)) (encodeArrayHeader xs.length ++ xs.flatMap bytes) (.array (xs.map v)) := by
  intro rest
  rw [List.append_assoc]
  simp only [read, reads_encodeArrayHeader hlength _, reads_readMany h rest, Option.map_some]

/-- A string of bytes is an array of numbers. -/
theorem reads_encodeBytes {bytes : Bytes} (h : bytes.length < 2 ^ 32) (depth : Nat) :
    Reads (read (depth + 1)) (encodeBytes bytes) (.array (bytes.map fun b => .unsigned b.toNat)) := by
  have item : ∀ b ∈ bytes, Reads (read depth) (encodeNat b.toNat) (.unsigned b.toNat) := by
    intro b _
    have hb : b.toNat < 2 ^ 64 := Nat.lt_trans b.toNat_lt (by decide)
    exact reads_number hb depth
  exact reads_array h item

/-! ## Fields -/

namespace Value

theorem byte?_unsigned (b : UInt8) : byte? (.unsigned b.toNat) = some b := by
  have hb : b.toNat ≤ 0xFF := Nat.le_of_lt_succ b.toNat_lt
  simp [byte?, nat?, hb]

theorem word?_unsigned (n : UInt64) : word? (.unsigned n.toNat) = some n := by
  have hn : n.toNat ≤ 0xFFFFFFFFFFFFFFFF := Nat.le_of_lt_succ n.toNat_lt
  simp [word?, nat?, hn]

theorem mapM_byte? (bytes : Bytes) : (bytes.map fun b => unsigned b.toNat).mapM byte? = some bytes := by
  induction bytes with
  | nil => rfl
  | cons b bytes ih => simp [List.mapM_cons, byte?_unsigned, ih]

/-- The bytes of an array of numbers. -/
theorem bytes?_array (bytes : Bytes) : bytes? (.array (bytes.map fun b => .unsigned b.toNat)) = some bytes :=
  mapM_byte? bytes

theorem bytesOfLength?_array (bytes : Bytes) :
    bytesOfLength? bytes.length (.array (bytes.map fun b => .unsigned b.toNat)) = some bytes := by
  simp only [bytesOfLength?, sequence?, List.length_map, if_true, Option.bind_some, mapM_byte?]

end Value
end MessagePack
end VoucherGateway
