import Mathlib.Logic.ExistsUnique
import VoucherGateway.Proofs.Wire.Spelling
import VoucherGateway.Text.Radix
import VoucherGateway.Voucher.Identifier

/-!
# Identifiers as text — which texts name a party

Reading digits works on the bytes of a text.  No byte of a letter beyond ASCII is the byte of a digit, so the texts that
are read are exactly those that spell their bytes, in either case (`decode_eq_ok_iff`).  An identifier is what 64 such
digits stand for, behind any number of marks.

Main statement: `parses_exactly_digits`.
-/

namespace VoucherGateway
namespace Hex

/-! ## From bytes back to letters -/

/-- The byte of a digit is below 128, and the letter of that number is the digit in one of its cases. -/
theorem letter_of_digitValue? {byte : UInt8} {n : Nat} (h : digitValue? byte = some n) :
    byte.toNat < 128 ∧ n < 16 ∧ (Char.ofNat byte.toNat).toLower = digitChar n := by
  have all : ∀ k : Fin 256, ∀ n ∈ digitValue? (UInt8.ofNat k),
      k.val < 128 ∧ n < 16 ∧ (Char.ofNat k).toLower = digitChar n := by
    decide +kernel
  have hbyte : byte.toNat < 256 := byte.toNat_lt
  have hsame : UInt8.ofNat byte.toNat = byte := UInt8.ofNat_toNat
  exact all ⟨byte.toNat, hbyte⟩ n (by rw [hsame]; exact h)

/-- A letter whose first byte is below 128 is that byte, and has no other. -/
theorem utf8EncodeChar_of_ascii {c : Char} {byte : UInt8} {more : Bytes}
    (h : String.utf8EncodeChar c = byte :: more) (hbyte : byte.toNat < 128) :
    more = [] ∧ c = Char.ofNat byte.toNat := by
  have hnat : c.val.toNat = c.toNat := rfl
  unfold String.utf8EncodeChar at h
  dsimp only at h
  split at h
  · next hsmall =>
    obtain ⟨rfl, rfl⟩ := List.cons_eq_cons.1 h
    have hfits : c.val.toNat < 2 ^ 8 := by omega
    rw [UInt8.toNat_ofNat_of_lt' hfits, hnat, Char.ofNat_toNat]
    exact ⟨rfl, rfl⟩
  -- the longer forms begin with a byte of at least 192
  · exfalso
    split at h
    · obtain ⟨rfl, -⟩ := List.cons_eq_cons.1 h
      rw [UInt8.toNat_ofNat'] at hbyte
      omega
    · split at h
      · obtain ⟨rfl, -⟩ := List.cons_eq_cons.1 h
        rw [UInt8.toNat_ofNat'] at hbyte
        omega
      · obtain ⟨rfl, -⟩ := List.cons_eq_cons.1 h
        rw [UInt8.toNat_ofNat'] at hbyte
        omega

theorem textBytes_cons (c : Char) (text : List Char) :
    textBytes (c :: text) = String.utf8EncodeChar c ++ textBytes text := rfl

theorem utf8EncodeChar_ne_nil (c : Char) : String.utf8EncodeChar c ≠ [] := by
  have hlength : (String.utf8EncodeChar c).length = c.utf8Size := String.length_utf8EncodeChar c
  have hpos : 0 < c.utf8Size := c.utf8Size_pos
  intro hnil
  rw [hnil, List.length_nil] at hlength
  omega

/-- A text whose first byte is that of a digit begins with the digit. -/
theorem cons_of_textBytes {text : List Char} {byte : UInt8} {rest : Bytes} {n : Nat}
    (h : textBytes text = byte :: rest) (hdigit : digitValue? byte = some n) :
    ∃ c tail, text = c :: tail ∧ c.toLower = digitChar n ∧ textBytes tail = rest := by
  obtain ⟨hascii, -, hlower⟩ := letter_of_digitValue? hdigit
  cases text with
  | nil => cases h
  | cons c tail =>
    rw [textBytes_cons] at h
    cases hencode : String.utf8EncodeChar c with
    | nil => exact absurd hencode (utf8EncodeChar_ne_nil c)
    | cons first more =>
      rw [hencode, List.cons_append] at h
      obtain ⟨rfl, hrest⟩ := List.cons_eq_cons.1 h
      obtain ⟨rfl, rfl⟩ := utf8EncodeChar_of_ascii hencode hascii
      exact ⟨_, tail, rfl, hlower, hrest⟩

/-- The digits of a byte are those of its halves. -/
theorem pair_ofNat {high low : Nat} (hhigh : high < 16) (hlow : low < 16) :
    pair (UInt8.ofNat (16 * high + low)) = [digitChar high, digitChar low] := by
  have hfits : 16 * high + low < 2 ^ 8 := by omega
  have hbyte : (UInt8.ofNat (16 * high + low)).toNat = 16 * high + low := UInt8.toNat_ofNat_of_lt' hfits
  have hdiv : (16 * high + low) / 16 = high := by omega
  have hmod : (16 * high + low) % 16 = low := by omega
  rw [pair, hbyte, hdiv, hmod]

theorem digits_cons (byte : UInt8) (bytes : Bytes) : digits (byte :: bytes) = pair byte ++ digits bytes := rfl

/-- What is read as bytes spells them. -/
theorem toLower_of_readPairs {text : List Char} {bytes input : Bytes} {position : Nat}
    (h : readPairs position input = .ok bytes) (htext : textBytes text = input) :
    text.map Char.toLower = digits bytes := by
  -- two digits at a time, as the reader takes them
  fun_induction readPairs position input generalizing text bytes with
  | case1 =>
    obtain rfl := Except.ok.inj h
    cases text with
    | nil => rfl
    | cons c tail => exact absurd (List.append_eq_nil_iff.1 htext).1 (utf8EncodeChar_ne_nil c)
  | case5 position high low rest m hhigh n hlow read hread ih =>
    obtain rfl := Except.ok.inj h
    obtain ⟨c, _, rfl, hc, htail⟩ := cons_of_textBytes htext hhigh
    obtain ⟨d, tail, rfl, hd, htail⟩ := cons_of_textBytes htail hlow
    have hm : m < 16 := (letter_of_digitValue? hhigh).2.1
    have hn : n < 16 := (letter_of_digitValue? hlow).2.1
    have hrest : tail.map Char.toLower = digits read := ih hread htail
    rw [digits_cons, pair_ofNat hm hn, List.map_cons, List.map_cons, hc, hd, hrest]
    rfl
  -- in all other cases nothing is read
  | _ => cases h

/-- The texts that are read as bytes are those that spell them. -/
theorem decode_eq_ok_iff {text : List Char} {bytes : Bytes} :
    decode text = .ok bytes ↔ text.map Char.toLower = digits bytes := by
  refine ⟨fun h => ?_, decode_of_toLower⟩
  unfold decode at h
  dsimp only at h
  split at h
  · cases h
  · exact toLower_of_readPairs h rfl

/-! ## Digits -/

theorem toLower_of_isDigit {c : Char} (h : Text.isDigit 16 c = true) : ∃ n < 16, c.toLower = digitChar n := by
  have ascii : ∀ k : Fin 128, Text.isDigit 16 (Char.ofNat k) = true →
      ∃ n : Fin 16, (Char.ofNat k).toLower = digitChar n := by
    decide +kernel
  have hsmall : c.toNat < 128 := by
    unfold Text.isDigit Text.digit? Text.hexDigit? at h
    have hle : ∀ d : Char, c ≤ d → c.toNat ≤ d.toNat := fun d hd => hd
    split at h
    · next hc => exact Nat.lt_of_le_of_lt (hle _ hc.2) (by decide)
    · split at h
      · next hc => exact Nat.lt_of_le_of_lt (hle _ hc.2) (by decide)
      · split at h
        · next hc => exact Nat.lt_of_le_of_lt (hle _ hc.2) (by decide)
        · cases h
  have hsame : Char.ofNat c.toNat = c := Char.ofNat_toNat c
  obtain ⟨n, hn⟩ := ascii ⟨c.toNat, hsmall⟩ (by rw [hsame]; exact h)
  exact ⟨n, n.isLt, by rw [← hn, hsame]⟩

theorem isDigit_of_toLower {c : Char} {n : Nat} (hn : n < 16) (h : c.toLower = digitChar n) :
    Text.isDigit 16 c = true := by
  have either : ∀ n : Fin 16, Text.isDigit 16 (digitChar n) = true ∧
      Text.isDigit 16 (digitChar n).toUpper = true := by
    decide
  obtain rfl | rfl := eq_or_eq_toUpper h
  · exact (either ⟨n, hn⟩).1
  · exact (either ⟨n, hn⟩).2

/-- The texts that spell `n` bytes are those of `2 * n` digits. -/
theorem exists_digits_iff {text : List Char} {n : Nat} :
    (∃ bytes, bytes.length = n ∧ text.map Char.toLower = digits bytes) ↔
      text.length = 2 * n ∧ ∀ c ∈ text, Text.isDigit 16 c = true := by
  induction n generalizing text with
  | zero =>
    constructor
    · rintro ⟨bytes, hlength, htext⟩
      obtain rfl := List.length_eq_zero_iff.1 hlength
      obtain rfl := List.map_eq_nil_iff.1 htext
      exact ⟨rfl, nofun⟩
    · rintro ⟨hlength, -⟩
      obtain rfl := List.length_eq_zero_iff.1 hlength
      exact ⟨[], rfl, rfl⟩
  | succ n ih =>
    constructor
    · rintro ⟨_ | ⟨b, bytes⟩, hlength, htext⟩
      · cases hlength
      · have hb : b.toNat < 256 := b.toNat_lt
        obtain ⟨c, _, rfl, hc, htext⟩ := List.map_eq_cons_iff.1 htext
        obtain ⟨d, tail, rfl, hd, htail⟩ := List.map_eq_cons_iff.1 htext
        obtain ⟨hcount, hdigits⟩ := ih.1 ⟨bytes, Nat.succ.inj hlength, htail⟩
        refine ⟨by simp only [List.length_cons, hcount]; omega, ?_⟩
        rintro x (_ | ⟨_, _ | ⟨_, hx⟩⟩)
        · exact isDigit_of_toLower (by omega) hc
        · exact isDigit_of_toLower (by omega) hd
        · exact hdigits x hx
    · rintro ⟨hlength, hdigits⟩
      match text, hlength with
      | c :: d :: tail, hlength =>
        obtain ⟨m, hm, hc⟩ := toLower_of_isDigit (hdigits c (by simp))
        obtain ⟨k, hk, hd⟩ := toLower_of_isDigit (hdigits d (by simp))
        have htail : tail.length = 2 * n := by
          simp only [List.length_cons] at hlength
          omega
        obtain ⟨bytes, hcount, hspelled⟩ := ih.2 ⟨htail, fun x hx => hdigits x (by simp [hx])⟩
        refine ⟨UInt8.ofNat (16 * m + k) :: bytes, by rw [List.length_cons, hcount], ?_⟩
        rw [digits_cons, pair_ofNat hm hk, List.map_cons, List.map_cons, hc, hd, hspelled]
        rfl

theorem digits_injective : Function.Injective digits := by
  intro bytes bytes' h
  have hread := decode_digits bytes
  rw [h, decode_digits] at hread
  exact (Except.ok.inj hread).symm

end Hex

namespace Identifier

/-! ## Marks -/

/-- A number of marks in a row. -/
def marks : Nat → List Char
  | 0 => []
  | n + 1 => '0' :: 'x' :: marks n

/-- What is left of a text behind all its marks. -/
structure Strips (text : String) (rest : List Char) : Prop where
  behind : ∃ n, text.toList = marks n ++ rest
  /-- Not one mark is left in front. -/
  bare : ¬ ['0', 'x'] <+: rest

theorem dropMarks_marks_append (n : Nat) (cs : List Char) : dropMarks (marks n ++ cs) = dropMarks cs := by
  induction n with
  | zero => rfl
  | succ n ih => exact ih

/-- A text without a mark in front keeps all of itself. -/
theorem dropMarks_of_bare {cs : List Char} (h : ¬ ['0', 'x'] <+: cs) : dropMarks cs = cs := by
  unfold dropMarks
  split
  · next rest => exact absurd ⟨rest, rfl⟩ h
  · rfl

theorem Strips.dropMarks_eq {text : String} {rest : List Char} (h : Strips text rest) :
    dropMarks text.toList = rest := by
  obtain ⟨n, hn⟩ := h.behind
  rw [hn, dropMarks_marks_append, dropMarks_of_bare h.bare]

theorem strips_dropMarks (text : String) : Strips text (dropMarks text.toList) := by
  generalize hcs : text.toList = cs
  suffices h : (∃ n, cs = marks n ++ dropMarks cs) ∧ ¬ ['0', 'x'] <+: dropMarks cs from
    ⟨by rw [hcs]; exact h.1, h.2⟩
  clear hcs
  fun_induction dropMarks cs with
  | case1 rest ih =>
    obtain ⟨⟨n, hn⟩, hbare⟩ := ih
    refine ⟨⟨n + 1, ?_⟩, hbare⟩
    -- the mark that was dropped is one more in front
    calc
      '0' :: 'x' :: rest = '0' :: 'x' :: (marks n ++ dropMarks rest) := by rw [← hn]
      _ = marks (n + 1) ++ dropMarks rest := rfl
  | case2 cs hnone =>
    refine ⟨⟨0, rfl⟩, ?_⟩
    rintro ⟨rest, rfl⟩
    exact hnone rest rfl

/-! ## Identifiers -/

theorem toList_text (id : Identifier) : id.text.toList = Hex.digits id.bytes := String.toList_ofList

/-- A text is read as the identifier whose digits it spells. -/
theorem parse_eq_ok_iff {text : String} {id : Identifier} :
    parse text = .ok id ↔ (dropMarks text.toList).map Char.toLower = id.text.toList := by
  rw [toList_text, ← Hex.decode_eq_ok_iff]
  unfold parse
  cases hdecode : Hex.decode (dropMarks text.toList) with
  | error fault => simp
  | ok bytes =>
    constructor
    · intro h
      dsimp only at h
      split at h
      · cases h
        rfl
      · cases h
    · intro h
      obtain rfl := Except.ok.inj h
      simp only [dif_pos id.length_eq]

theorem text_injective {id id' : Identifier} (h : id.text = id'.text) : id = id' := by
  have hdigits : Hex.digits id.bytes = Hex.digits id'.bytes := by rw [← toList_text, ← toList_text, h]
  exact ext (Hex.digits_injective hdigits)

/-- Digits do not begin with a mark: the second letter of a mark is none. -/
theorem bare_text (id : Identifier) : ¬ ['0', 'x'] <+: id.text.toList := by
  rintro ⟨rest, hrest⟩
  have hdigits : ∀ c ∈ id.text.toList, Text.isDigit 16 c = true := by
    rw [toList_text]
    exact (Hex.exists_digits_iff.1 ⟨id.bytes, rfl, Hex.map_toLower_digits id.bytes⟩).2
  exact absurd (hdigits 'x' (by rw [← hrest]; simp)) (by decide)

/-- How a text is read of which `rest` is left behind its marks. -/
structure ReadBy (text : String) (rest : List Char) : Prop where
  /-- It names a party exactly if 64 digits are left. -/
  accepted : (∃ id, parse text = .ok id) ↔ rest.length = 64 ∧ ∀ c ∈ rest, Text.isDigit 16 c = true
  /-- The party is shown by these digits in lower case. -/
  shown : ∀ id, parse text = .ok id → id.text = String.ofList (rest.map Char.toLower)

theorem Strips.readBy {text : String} {rest : List Char} (h : Strips text rest) : ReadBy text rest where
  accepted := by
    have hspells : (∃ id, parse text = .ok id) ↔
        ∃ bytes : Bytes, bytes.length = 32 ∧ rest.map Char.toLower = Hex.digits bytes := by
      simp only [parse_eq_ok_iff, h.dropMarks_eq, toList_text]
      exact ⟨fun ⟨id, hid⟩ => ⟨id.bytes, id.length_eq, hid⟩, fun ⟨bytes, hlength, hid⟩ => ⟨⟨bytes, hlength⟩, hid⟩⟩
    rw [hspells, Hex.exists_digits_iff]
  shown id hid := by
    rw [parse_eq_ok_iff, h.dropMarks_eq] at hid
    rw [hid, String.ofList_toList]

/-- Every text has one part behind its marks; it names a party exactly if that part is 64 digits in either case, and
the party is shown by them in lower case.  So a party is read back from how it is shown, with any number of marks in
front, and two texts name one party exactly if they agree once the marks are gone and the case is ignored. -/
theorem parses_exactly_digits :
    (∀ text, ∃! rest, Strips text rest) ∧
    (∀ text rest, Strips text rest → ReadBy text rest) ∧
    (∀ (id : Identifier) (n : Nat), parse (String.ofList (marks n ++ id.text.toList)) = .ok id) ∧
    ∀ text rest text' rest' id id', Strips text rest → Strips text' rest' →
      parse text = .ok id → parse text' = .ok id' →
      (id = id' ↔ rest.map Char.toLower = rest'.map Char.toLower) := by
  refine ⟨fun text => ?_, fun _ _ h => h.readBy, fun id n => ?_, ?_⟩
  · exact ⟨dropMarks text.toList, strips_dropMarks text, fun _ h => h.dropMarks_eq.symm⟩
  · have hrest : dropMarks (String.ofList (marks n ++ id.text.toList)).toList = id.text.toList := by
      rw [String.toList_ofList, dropMarks_marks_append, dropMarks_of_bare (bare_text id)]
    rw [parse_eq_ok_iff, hrest, toList_text, Hex.map_toLower_digits]
  · intro text rest text' rest' id id' hstrips hstrips' hid hid'
    rw [parse_eq_ok_iff, hstrips.dropMarks_eq] at hid
    rw [parse_eq_ok_iff, hstrips'.dropMarks_eq] at hid'
    constructor
    · rintro rfl
      rw [hid, hid']
    · intro hsame
      refine text_injective (String.toList_injective ?_)
      rw [← hid, ← hid', hsame]

/-- Two marks in front of digits in both cases. -/
theorem parses_exactly_digits_sample :
    let rest := (List.replicate 32 ['a', 'B']).flatten
    let text := String.ofList (marks 2 ++ rest)
    let plain := String.ofList (rest.map Char.toLower)
    let id : Identifier := .ofByte 0xAB
    Strips text rest ∧ Strips plain (rest.map Char.toLower) ∧ (∃ id, parse text = .ok id) ∧
      parse text = .ok id ∧ parse plain = .ok id ∧ id.text = plain := by
  intro rest text plain id
  have hstrips : Strips text rest := ⟨⟨2, String.toList_ofList⟩, by decide⟩
  have hplain : Strips plain (rest.map Char.toLower) := ⟨⟨0, String.toList_ofList⟩, by decide⟩
  obtain ⟨-, hread, hback, hagree⟩ := parses_exactly_digits
  have hdigits : rest.all (Text.isDigit 16) = true := by decide
  obtain ⟨named, hnamed⟩ : ∃ id, parse text = .ok id :=
    (hread text rest hstrips).accepted.2 ⟨by decide, List.all_eq_true.1 hdigits⟩
  have hshown : id.text = plain := by
    refine String.toList_injective ?_
    rw [toList_text, String.toList_ofList]
    decide
  have hid : parse plain = .ok id := by
    have hmarks := hback id 0
    rwa [marks, List.nil_append, String.ofList_toList, hshown] at hmarks
  have hsame : named = id := (hagree text rest plain _ named id hstrips hplain hnamed hid).2 (by decide)
  exact ⟨hstrips, hplain, ⟨named, hnamed⟩, hsame ▸ hnamed, hid, hshown⟩

end Identifier
end VoucherGateway
