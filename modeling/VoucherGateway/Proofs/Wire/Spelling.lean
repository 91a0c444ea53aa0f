import VoucherGateway.Text.Blank
import VoucherGateway.Text.Hex

/-!
# Spelling — the texts that stand for bytes

Bytes are written in one way and read in many: the digits may be in either case, and where a text is trimmed
first, there may be blanks around them (`Hex.Spells`).

Main statement: `Hex.Spells.decode_trim`.
-/

namespace VoucherGateway

namespace Text

/-- Trimming takes the blanks at the two ends and leaves what is between them. -/
theorem trim_append {before text after : List Char} (hbefore : ∀ c ∈ before, isBlank c = true)
    (htext : ∀ c ∈ text, isBlank c = false) (hafter : ∀ c ∈ after, isBlank c = true) :
    trim (before ++ text ++ after) = text := by
  have hreversed : ∀ c ∈ after.reverse, isBlank c = true := by simpa using hafter
  have hback : text.reverse.dropWhile isBlank = text.reverse := by
    cases hrev : text.reverse with
    | nil => rfl
    | cons c rest =>
      have hc : c ∈ text := List.mem_reverse.1 (hrev ▸ List.mem_cons_self)
      simp only [List.dropWhile_cons, htext c hc, Bool.false_eq_true, if_false]
  unfold trim
  rw [List.append_assoc, List.dropWhile_append_of_pos hbefore]
  cases text with
  | nil =>
    have hgone : after.dropWhile isBlank = [] := by
      rw [← List.append_nil after, List.dropWhile_append_of_pos hafter, List.dropWhile_nil]
    simp [hgone]
  | cons c rest =>
    have hc : isBlank c = false := htext c List.mem_cons_self
    rw [List.cons_append, List.dropWhile_cons, hc, if_neg (by decide), ← List.cons_append, List.reverse_append,
      List.dropWhile_append_of_pos hreversed, hback, List.reverse_reverse]

end Text

namespace Hex

/-- A text that is these bytes in digits of either case, with any blanks around them. -/
def Spells (text : String) (bytes : Bytes) : Prop :=
  ∃ before spelled after, text.toList = before ++ spelled ++ after ∧
    (∀ c ∈ before, Text.isBlank c = true) ∧ (∀ c ∈ after, Text.isBlank c = true) ∧
    spelled.map Char.toLower = digits bytes

theorem toUpper_toLower {c : Char} (hfrom : 65 ≤ c.toNat) (hto : c.toNat ≤ 90) : c.toLower.toUpper = c := by
  have letter : ∀ k : Fin 26, (Char.ofNat (65 + k)).toLower.toUpper = Char.ofNat (65 + k) := by decide
  have hc : Char.ofNat (65 + (c.toNat - 65)) = c := by
    rw [Nat.add_sub_cancel' hfrom, Char.ofNat_toNat]
  rw [← hc]
  exact letter ⟨c.toNat - 65, by omega⟩

/-- A letter is its lower case, or the upper case of that. -/
theorem eq_or_eq_toUpper {c d : Char} (h : c.toLower = d) : c = d ∨ c = d.toUpper := by
  by_cases hupper : c.val ≥ 'A'.val ∧ c.val ≤ 'Z'.val
  · exact .inr (h ▸ (toUpper_toLower hupper.1 hupper.2).symm)
  · have hsame : c.toLower = c := dif_neg hupper
    exact .inl (hsame ▸ h)

/-- In either case a digit is one byte of text, has its value, and is not blank. -/
theorem digit_of_toLower {c : Char} {n : Nat} (hn : n < 16) (h : c.toLower = digitChar n) :
    ∃ byte, String.utf8EncodeChar c = [byte] ∧ digitValue? byte = some n ∧ Text.isBlank c = false := by
  have lower : ∀ n : Fin 16, let c := digitChar n
      String.utf8EncodeChar c = [UInt8.ofNat c.toNat] ∧ digitValue? (UInt8.ofNat c.toNat) = some n.val ∧
        Text.isBlank c = false := by
    decide
  have upper : ∀ n : Fin 16, let c := (digitChar n).toUpper
      String.utf8EncodeChar c = [UInt8.ofNat c.toNat] ∧ digitValue? (UInt8.ofNat c.toNat) = some n.val ∧
        Text.isBlank c = false := by
    decide
  obtain rfl | rfl := eq_or_eq_toUpper h
  · exact ⟨_, lower ⟨n, hn⟩⟩
  · exact ⟨_, upper ⟨n, hn⟩⟩

/-- What spells a byte and more begins with the byte's two digits. -/
theorem textBytes_of_toLower {spelled : List Char} {b : UInt8} {rest : Bytes}
    (h : spelled.map Char.toLower = digits (b :: rest)) :
    ∃ high low tail, textBytes spelled = high :: low :: textBytes tail ∧
      digitValue? high = some (b.toNat / 16) ∧ digitValue? low = some (b.toNat % 16) ∧
      tail.map Char.toLower = digits rest := by
  have hcons : digits (b :: rest) = digitChar (b.toNat / 16) :: digitChar (b.toNat % 16) :: digits rest := rfl
  have hb : b.toNat < 256 := b.toNat_lt
  rw [hcons] at h
  obtain ⟨c, _, rfl, hc, h⟩ := List.map_eq_cons_iff.1 h
  obtain ⟨d, tail, rfl, hd, htail⟩ := List.map_eq_cons_iff.1 h
  obtain ⟨high, ehigh, vhigh, -⟩ := digit_of_toLower (by omega) hc
  obtain ⟨low, elow, vlow, -⟩ := digit_of_toLower (by omega) hd
  refine ⟨high, low, tail, ?_, vhigh, vlow, htail⟩
  simp only [textBytes, List.flatMap_cons, ehigh, elow, List.singleton_append]

theorem length_textBytes_of_toLower {spelled : List Char} {bytes : Bytes}
    (h : spelled.map Char.toLower = digits bytes) : (textBytes spelled).length = 2 * bytes.length := by
  induction bytes generalizing spelled with
  | nil =>
    obtain rfl := List.map_eq_nil_iff.1 h
    rfl
  | cons b rest ih =>
    obtain ⟨high, low, tail, htext, -, -, htail⟩ := textBytes_of_toLower h
    simp only [htext, List.length_cons, ih htail]
    omega

theorem readPairs_of_toLower {spelled : List Char} {bytes : Bytes} (h : spelled.map Char.toLower = digits bytes)
    (position : Nat) : readPairs position (textBytes spelled) = .ok bytes := by
  induction bytes generalizing spelled position with
  | nil =>
    obtain rfl := List.map_eq_nil_iff.1 h
    rfl
  | cons b rest ih =>
    obtain ⟨high, low, tail, htext, vhigh, vlow, htail⟩ := textBytes_of_toLower h
    have hbyte : UInt8.ofNat (16 * (b.toNat / 16) + b.toNat % 16) = b := by
      rw [Nat.div_add_mod, UInt8.ofNat_toNat]
    simp only [htext, readPairs, vhigh, vlow, ih htail, hbyte]

theorem decode_of_toLower {spelled : List Char} {bytes : Bytes} (h : spelled.map Char.toLower = digits bytes) :
    decode spelled = .ok bytes := by
  have heven : ¬ 2 * bytes.length % 2 = 1 := by omega
  simp only [decode, length_textBytes_of_toLower h, if_neg heven, readPairs_of_toLower h 0]

theorem not_isBlank_of_toLower {spelled : List Char} {bytes : Bytes}
    (h : spelled.map Char.toLower = digits bytes) : ∀ c ∈ spelled, Text.isBlank c = false := by
  intro c hc
  have hmem : c.toLower ∈ digits bytes := h ▸ List.mem_map_of_mem hc
  obtain ⟨b, -, hpair⟩ := List.mem_flatMap.1 hmem
  have hb : b.toNat < 256 := b.toNat_lt
  simp only [pair, List.mem_cons, List.not_mem_nil, or_false] at hpair
  obtain hdigit | hdigit := hpair
  · obtain ⟨_, _, _, hblank⟩ := digit_of_toLower (by omega) hdigit
    exact hblank
  · obtain ⟨_, _, _, hblank⟩ := digit_of_toLower (by omega) hdigit
    exact hblank

/-- A text is read as the bytes it spells, once it is trimmed. -/
theorem Spells.decode_trim {text : String} {bytes : Bytes} (h : Spells text bytes) :
    decode (Text.trim text.toList) = .ok bytes := by
  obtain ⟨before, spelled, after, htext, hbefore, hafter, hspelled⟩ := h
  rw [htext, Text.trim_append hbefore (not_isBlank_of_toLower hspelled) hafter]
  exact decode_of_toLower hspelled

theorem map_toLower_digits (bytes : Bytes) : (digits bytes).map Char.toLower = digits bytes := by
  have digit : ∀ n : Fin 16, (digitChar n).toLower = digitChar n := by decide
  rw [digits, List.map_flatMap]
  congr 1
  funext b
  have hb : b.toNat < 256 := b.toNat_lt
  have hhigh := digit ⟨b.toNat / 16, by omega⟩
  have hlow := digit ⟨b.toNat % 16, by omega⟩
  simp only [pair, List.map_cons, List.map_nil, hhigh, hlow]

/-- What is written spells what it was written for. -/
theorem spells_encode (bytes : Bytes) : Spells (encode bytes) bytes :=
  ⟨[], digits bytes, [], by simp [encode], by simp, by simp, map_toLower_digits bytes⟩

end Hex
end VoucherGateway
