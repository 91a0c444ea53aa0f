import Mathlib.Data.List.Basic
import VoucherGateway.Toml.Document
import VoucherGateway.Toml.Quoted.RoundTrip

/-!
# Scalars — reading back what stands in a line

Numbers are written by their decimal digits, and a word ends with the line.  A text brings its own quotes.

Main statement: `readScalar_write`.
-/

namespace VoucherGateway
namespace Toml

/-! ## Digits -/

section Digits

variable {digits rest : List Char} {c : Char}

theorem digit?_of_isDigit (h : c.isDigit = true) : Text.digit? 10 c = some (c.toNat - '0'.toNat) := by
  obtain ⟨hlow, hhigh⟩ : 48 ≤ c.val ∧ c.val ≤ 57 := by simpa [Char.isDigit] using h
  have hvalue : Text.hexDigit? c = some (c.toNat - '0'.toNat) := if_pos ⟨hlow, hhigh⟩
  have hsmall : c.toNat - '0'.toNat < 10 := by
    have h57 : c.val.toNat ≤ 57 := hhigh
    have h48 : '0'.toNat = 48 := rfl
    rw [h48]
    change c.val.toNat - 48 < 10
    omega
  simp only [Text.digit?, hvalue, Option.bind_some, if_pos hsmall]

theorem readRun_digits (h : ∀ c ∈ digits, c.isDigit = true) (acc : Nat) :
    Text.readRun 10 acc digits = some (Nat.ofDigitChars 10 digits acc) := by
  induction digits generalizing acc with
  | nil => rfl
  | cons c rest ih =>
    rw [Nat.ofDigitChars_cons, ← ih (fun x hx => h x (List.mem_cons_of_mem _ hx))]
    simp only [Text.readRun, digit?_of_isDigit (h c List.mem_cons_self), Option.bind_some]

/-- Digits without underscores stay as they are. -/
theorem ungroup_digits (h : ∀ c ∈ digits, c.isDigit = true) (hne : digits ≠ []) :
    ungroup (Text.isDigit 10) digits = some digits := by
  induction digits with
  | nil => exact absurd rfl hne
  | cons c rest ih =>
    have hc : Text.isDigit 10 c = true := by
      simp [Text.isDigit, digit?_of_isDigit (h c List.mem_cons_self)]
    unfold ungroup
    rw [if_pos hc]
    cases rest with
    | nil => rfl
    | cons d rest =>
      have hd : d ≠ '_' := by
        rintro rfl
        exact absurd (h '_' (by simp)) (by decide)
      have hrest := ih (fun x hx => h x (List.mem_cons_of_mem _ hx)) (List.cons_ne_nil _ _)
      split
      · next heq => cases heq
      · next heq => exact absurd (List.cons.inj heq).1 hd
      · rw [hrest, Option.map_some]

/-- No number but zero starts with a zero. -/
theorem head?_toDigits {n : Nat} (hn : n ≠ 0) : (Nat.toDigits 10 n).head? ≠ some '0' := by
  -- on the number of digits: the first is that of a tenth
  induction n using Nat.strongRecOn with
  | ind n ih =>
    rcases Nat.lt_or_ge n 10 with hlt | hge
    · rw [Nat.toDigits_of_lt_base hlt]
      have hdigit : ∀ d : Fin 10, d.val ≠ 0 → [Nat.digitChar d].head? ≠ some '0' := by decide
      exact hdigit ⟨n, hlt⟩ hn
    · rw [Nat.toDigits_of_base_le (by decide) hge, List.head?_append_of_ne_nil _ Nat.toDigits_ne_nil]
      exact ih (n / 10) (by omega) (by omega)

theorem isDigit_of_mem {n : Nat} (h : c ∈ Nat.toDigits 10 n) : c.isDigit = true :=
  Nat.isDigit_of_mem_toDigits (by decide) (by decide) h

theorem readDecimal_toDigits (n : Nat) : readDecimal (Nat.toDigits 10 n) = some n := by
  have hdigits : ∀ c ∈ Nat.toDigits 10 n, c.isDigit = true := fun _ => isDigit_of_mem
  have hwhole : wholeDigits (Nat.toDigits 10 n) = some (Nat.toDigits 10 n) := by
    unfold wholeDigits
    rw [ungroup_digits hdigits Nat.toDigits_ne_nil]
    split
    · next heq =>
      have hzero : n = 0 := by
        by_contra hn
        exact head?_toDigits hn (by rw [Option.some.inj heq]; rfl)
      rw [hzero] at heq
      cases heq
    · rfl
  have hread : Text.readBase 10 (Nat.toDigits 10 n) = some n := by
    unfold Text.readBase
    split
    · next heq => exact absurd heq Nat.toDigits_ne_nil
    · rw [readRun_digits hdigits, Nat.ofDigitChars_ten_toDigits]
  rw [readDecimal, hwhole, Option.bind_some, hread]

/-- No mark of a base and no sign is a digit. -/
theorem readInteger_digits (h : ∀ c ∈ digits, c.isDigit = true) :
    readInteger digits = ((readDecimal digits).map Int.ofNat).filter isSignedWord := by
  unfold readInteger
  split
  · exact absurd (h 'x' (by simp)) (by decide)
  · exact absurd (h 'o' (by simp)) (by decide)
  · exact absurd (h 'b' (by simp)) (by decide)
  · exact absurd (h '-' (by simp)) (by decide)
  · exact absurd (h '+' (by simp)) (by decide)
  · rfl

/-- What is written of a number: its digits, behind a minus sign if it is negative. -/
theorem toList_toString (n : Int) :
    (toString n).toList = if n < 0 then '-' :: Nat.toDigits 10 n.natAbs else Nat.toDigits 10 n.natAbs := by
  cases n with
  | ofNat n => exact Nat.toList_repr
  | negSucc n =>
    have hsign : (toString (Int.negSucc n)).toList = "-".toList ++ (Nat.repr (n + 1)).toList :=
      String.toList_append
    rw [hsign, Nat.toList_repr, if_pos (Int.negSucc_lt_zero n)]
    rfl

theorem readInteger_toString {n : Int} (h : isSignedWord n = true) : readInteger (toString n).toList = some n := by
  rw [toList_toString]
  split
  · next hneg =>
    have hread : readInteger ('-' :: Nat.toDigits 10 n.natAbs) =
        ((readDecimal (Nat.toDigits 10 n.natAbs)).bind fun m => some (-(m : Int))).filter isSignedWord := by
      rw [readInteger]
      cases readDecimal (Nat.toDigits 10 n.natAbs) <;> rfl
    have hvalue : -(n.natAbs : Int) = n := by omega
    rw [hread, readDecimal_toDigits, Option.bind_some, hvalue]
    exact Option.filter_eq_some_iff.2 ⟨rfl, h⟩
  · next hpos =>
    have hvalue : Int.ofNat n.natAbs = n := by
      change (n.natAbs : Int) = n
      omega
    rw [readInteger_digits fun _ => isDigit_of_mem, readDecimal_toDigits, Option.map_some, hvalue]
    exact Option.filter_eq_some_iff.2 ⟨rfl, h⟩

end Digits

/-! ## Words -/

/-- Scalars that are read back as they were written. -/
def Scalar.Sound : Scalar → Prop
  | .text _ => True
  | .integer n => isSignedWord n = true
  | .truth _ => True
  -- other words have to be spelled in the first place
  | .real _ => False
  | .moment _ => False

section Words

variable {word rest : List Char}

/-- A word ends with its line. -/
theorem readWord_line (h : ∀ c ∈ word, isWordChar c = true) (rest : List Char) :
    readWord (word ++ '\n' :: rest) = (scalarOf? word).map (·, '\n' :: rest) := by
  have htake : (word ++ '\n' :: rest).takeWhile isWordChar = word := by
    rw [List.takeWhile_append_of_pos h]
    simp [isWordChar]
  simp only [readWord, htake, List.drop_left]
  rfl

theorem isWordChar_of_isDigit {c : Char} (h : c.isDigit = true) : isWordChar c = true := by
  simp [isWordChar, Char.isAlphanum, h]

theorem isWordChar_of_mem_toString {n : Int} {c : Char} (h : c ∈ (toString n).toList) : isWordChar c = true := by
  rw [toList_toString] at h
  split at h
  · rcases List.mem_cons.1 h with rfl | h
    · decide
    · exact isWordChar_of_isDigit (isDigit_of_mem h)
  · exact isWordChar_of_isDigit (isDigit_of_mem h)

/-- Every number starts with a digit or a sign, and so do no words but numbers. -/
theorem scalarOf?_toString {n : Int} (h : isSignedWord n = true) :
    scalarOf? (toString n).toList = some (.integer n) := by
  have hother : ∀ c : Char, c.isDigit = false → c ≠ '-' → c ∉ (toString n).toList := by
    intro c hdigit hsign hmem
    rw [toList_toString] at hmem
    have hc : c ∈ Nat.toDigits 10 n.natAbs := by
      split at hmem
      · exact (List.mem_cons.1 hmem).resolve_left hsign
      · exact hmem
    rw [isDigit_of_mem hc] at hdigit
    cases hdigit
  have htrue : (toString n).toList ≠ "true".toList := by
    intro heq
    exact hother 'r' (by decide) (by decide) (by rw [heq]; decide)
  have hfalse : (toString n).toList ≠ "false".toList := by
    intro heq
    exact hother 'a' (by decide) (by decide) (by rw [heq]; decide)
  simp only [scalarOf?, if_neg htrue, if_neg hfalse, readInteger_toString h]

theorem readScalar_word (h : ∀ c ∈ word, isWordChar c = true) (hne : word ≠ []) (rest : List Char) :
    readScalar (word ++ '\n' :: rest) = (scalarOf? word).map (·, '\n' :: rest) := by
  rw [← readWord_line h rest]
  obtain ⟨c, more, rfl⟩ := List.exists_cons_of_ne_nil hne
  have hc := h c List.mem_cons_self
  unfold readScalar
  split
  · next heq =>
    obtain ⟨rfl, -⟩ := List.cons.inj heq
    exact absurd hc (by decide)
  · next heq =>
    obtain ⟨rfl, -⟩ := List.cons.inj heq
    exact absurd hc (by decide)
  · rfl

end Words

/-! ## Scalars -/

/-- Characters that a scalar may start with: its quote, or the first of a word. -/
def startsScalar (c : Char) : Bool := c = '"' || c = '\'' || isWordChar c

section Scalars

variable {x : Scalar}

theorem Scalar.write_starts (h : x.Sound) : ∃ c more, x.write = c :: more ∧ startsScalar c = true := by
  cases x with
  | text s =>
    have hmark : ∀ q : Quote, startsScalar q.mark = true := by
      intro q
      cases q <;> decide
    exact ⟨(style s.toList).1.mark, _, rfl, hmark _⟩
  | integer n =>
    have hne : (toString n).toList ≠ [] := by
      rw [toList_toString]
      split
      · exact List.cons_ne_nil _ _
      · exact Nat.toDigits_ne_nil
    obtain ⟨c, more, heq⟩ := List.exists_cons_of_ne_nil hne
    have hword : isWordChar c = true := isWordChar_of_mem_toString (heq ▸ List.mem_cons_self)
    exact ⟨c, more, heq, by simp [startsScalar, hword]⟩
  | truth b =>
    cases b
    · exact ⟨'f', _, rfl, by decide⟩
    · exact ⟨'t', _, rfl, by decide⟩
  | real word => cases h
  | moment word => cases h

/-- A text is read back from between the quotes that are chosen for it. -/
theorem readScalar_text (s : String) (rest : List Char) :
    readScalar ((Scalar.text s).write ++ '\n' :: rest) = some (.text s, '\n' :: rest) := by
  have hend : ∀ q : Quote, some '\n' ≠ some q.mark := by
    intro q
    cases q <;> decide
  have hread : readQuoted (style s.toList).1 (quotedTail (style s.toList).1 (style s.toList).2 s.toList ++
      '\n' :: rest) = some (s.toList, '\n' :: rest) := readQuoted_quotedTail s.toList (hend _)
  change readScalar ((style s.toList).1.mark :: (quotedTail (style s.toList).1 (style s.toList).2 s.toList ++
    '\n' :: rest)) = some (.text s, '\n' :: rest)
  generalize (style s.toList).1 = q at hread ⊢
  cases q with
  | double => simp only [Quote.mark, readScalar, hread, Option.map_some, String.ofList_toList]
  | single => simp only [Quote.mark, readScalar, hread, Option.map_some, String.ofList_toList]

/-- A scalar at the end of its line is read back. -/
theorem readScalar_write (h : x.Sound) (rest : List Char) :
    readScalar (x.write ++ '\n' :: rest) = some (x, '\n' :: rest) := by
  obtain ⟨c, more, hstart, -⟩ := Scalar.write_starts h
  have hne : x.write ≠ [] := hstart ▸ List.cons_ne_nil _ _
  cases x with
  | text s => exact readScalar_text s rest
  | integer n =>
    have hword := readScalar_word (fun _ hc => isWordChar_of_mem_toString hc) hne rest
    rw [scalarOf?_toString h] at hword
    exact hword
  | truth b =>
    cases b
    · exact readScalar_word (List.all_eq_true.1 (by decide : "false".toList.all isWordChar = true)) hne rest
    · exact readScalar_word (List.all_eq_true.1 (by decide : "true".toList.all isWordChar = true)) hne rest
  | real word => cases h
  | moment word => cases h

end Scalars

end Toml
end VoucherGateway
