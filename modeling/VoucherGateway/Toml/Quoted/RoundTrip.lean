import VoucherGateway.Toml.Quoted

/-!
# Toml quoted — reading back what was written

Each of the four styles is read back on its own, for all texts that the style is chosen for: a line by a
step per character, a block by a step per character and a look at what stands behind a quote.  Main
statement: `readQuoted_quotedTail`, a written text is recovered whatever follows it, as long as that is no
further quote.
-/

namespace VoucherGateway
namespace Toml

/-! ## Escapes read back -/

/-- The letter `u` takes four digits. -/
theorem escape?_u (a b c d : Char) (rest : List Char) :
    escape? ('u' :: a :: b :: c :: d :: rest) =
      ((Text.readBase 16 [a, b, c, d]).bind charOf?).map (·, 5) := by
  have : ¬ rest.length + 1 + 1 + 1 + 1 < 4 := by omega
  simp [escape?, codePoint?, this]

/-- The two digits of a control character have its code point. -/
theorem readBase_controls : ∀ n : Fin 128, isPlain (Char.ofNat n) = false →
    (Text.readBase 16 ['0', '0', upperDigit (n / 16), upperDigit (n % 16)]).bind charOf? =
      some (Char.ofNat n) := by
  decide +kernel

/-- Characters that are not plain are ASCII. -/
theorem toNat_lt_of_not_isPlain {c : Char} (h : isPlain c = false) : c.toNat < 128 := by
  simp only [isPlain, Bool.or_eq_false_iff, Bool.and_eq_false_iff, decide_eq_false_iff_not] at h
  have : c.toNat = c.val.toNat := rfl
  rcases h.2 with h | h
  · have : ¬ (0x20 : UInt32).toNat ≤ c.val.toNat := h
    have : (0x20 : UInt32).toNat = 32 := rfl
    omega
  · have h : c.val = 0x7F := by simpa using h
    rw [this, h]; decide

/-- The escape of a control character reads back. -/
theorem escape?_control {c : Char} (h : isPlain c = false) (rest : List Char) :
    escape? ('u' :: '0' :: '0' :: upperDigit (c.toNat / 16) :: upperDigit (c.toNat % 16) :: rest) =
      some (c, 5) := by
  have e : Char.ofNat c.toNat = c := Char.ofNat_toNat c
  have := readBase_controls ⟨c.toNat, toNat_lt_of_not_isPlain h⟩ (by simpa only [e] using h)
  rw [e] at this
  rw [escape?_u, this]
  rfl

/-- A character behind its escape is read as itself on a line. -/
theorem readLine_escaped {c : Char} (h : c ≠ '"') (s : List Char) :
    readLine .double 0 (escaped false c ++ s) = push c (readLine .double 0 s) := by
  unfold escaped
  split
  · subst c; simp [readLine, Quote.mark, escape?, letterEscape?]
  split
  · subst c; simp [readLine, Quote.mark, escape?, letterEscape?]
  split
  · subst c; simp [readLine, Quote.mark, escape?, letterEscape?]
  split
  · subst c; simp [readLine, Quote.mark, escape?, letterEscape?]
  split
  · subst c; simp [readLine, Quote.mark, escape?, letterEscape?]
  split
  · subst c; simp [readLine, Quote.mark, escape?, letterEscape?]
  split
  · simp [readLine, Quote.mark, *]
  · next hp =>
    have := escape?_control (by simpa using hp) s
    simp [readLine, Quote.mark, this]

/-- A character behind its escape is read as itself in a block. -/
theorem readBlock_escaped {c : Char} (h : c ≠ '"') (s : List Char) :
    readBlock .double 0 (escaped true c ++ s) = push c (readBlock .double 0 s) := by
  unfold escaped
  split
  · subst c
    simp [readBlock, Quote.mark, escape?, letterEscape?, continuation?, dropSpaces, isSpace, lineBreak?]
  split
  · subst c
    simp [readBlock, Quote.mark, escape?, letterEscape?, continuation?, dropSpaces, isSpace, lineBreak?]
  split
  · subst c
    simp [readBlock, Quote.mark]
  split
  · subst c
    simp [readBlock, Quote.mark, escape?, letterEscape?, continuation?, dropSpaces, isSpace, lineBreak?]
  split
  · subst c
    simp [readBlock, Quote.mark, escape?, letterEscape?, continuation?, dropSpaces, isSpace, lineBreak?]
  split
  · subst c
    simp [readBlock, Quote.mark, escape?, letterEscape?, continuation?, dropSpaces, isSpace, lineBreak?]
  split
  · simp [readBlock, Quote.mark, *]
  · next hp =>
    have := escape?_control (by simpa using hp) s
    simp [readBlock, Quote.mark, this, continuation?, dropSpaces, isSpace, lineBreak?]

/-! ## Lines read back -/

/-- What is written on a line with escapes reads back. -/
theorem readLine_writeEscaped (s rest : List Char) (run : Nat) :
    readLine .double 0 (writeEscaped false run s ++ '"' :: rest) = some (s, rest) := by
  induction s generalizing run with
  | nil => simp [writeEscaped, readLine, Quote.mark]
  | cons c s ih =>
    unfold writeEscaped
    split
    · subst c
      simp [readLine, Quote.mark, escape?, letterEscape?, ih, push]
    · next h => rw [List.append_assoc, readLine_escaped h, ih]; rfl

/-- A text without escapes and single quotes reads back on a line between these. -/
theorem readLine_raw {s : List Char} (h : ∀ c ∈ s, c ≠ '\'' ∧ isPlain c = true) (rest : List Char) :
    readLine .single 0 (s ++ '\'' :: rest) = some (s, rest) := by
  induction s with
  | nil => simp [readLine, Quote.mark]
  | cons c s ih =>
    have hc := h c (by simp)
    have := ih fun c hc => h c (by simp [hc])
    simp [readLine, Quote.mark, hc, this, push]

/-! ## Blocks read back -/

/-- Two quotes in a row, with another character behind them, belong to the block. -/
theorem closing?_none {q : Quote} {a b : Char} (h : ¬ (a = q.mark ∧ b = q.mark)) (rest : List Char) :
    closing? q (a :: b :: rest) = none := by
  unfold closing?
  by_cases ha : a = q.mark
  · have hb : ¬ b = q.mark := fun hb => h ⟨ha, hb⟩
    simp [List.takeWhile, ha, hb]
  · simp [ha]

/-- The end of a block, behind up to two quotes that belong to it. -/
theorem readBlock_close {q : Quote} {n : Nat} (hn : n ≤ 2) {rest : List Char}
    (hr : rest.head? ≠ some q.mark) :
    readBlock q 0 (List.replicate n q.mark ++ (List.replicate 3 q.mark ++ rest)) =
      some (List.replicate n q.mark, rest) := by
  have hrest : ∀ k, (rest.take k).takeWhile (· = q.mark) = [] := by
    intro k
    cases rest with
    | nil => simp
    | cons c rest =>
      have : ¬ c = q.mark := by simpa using hr
      cases k <;> simp [this]
  have : n = 0 ∨ n = 1 ∨ n = 2 := by omega
  rcases this with rfl | rfl | rfl <;>
    simp [List.replicate, readBlock, closing?, List.takeWhile, hrest]

/-- A quote on its own belongs to the block. -/
theorem closing?_of_head_ne {q : Quote} {a : Char} (h : a ≠ q.mark) (rest : List Char) :
    closing? q (a :: rest) = none := by
  simp [closing?, h]

/-- What is written for a character other than a quote does not begin with one. -/
theorem escaped_head {c : Char} (h : c ≠ '"') (block : Bool) :
    ∃ a l, escaped block c = a :: l ∧ a ≠ '"' := by
  unfold escaped
  repeat' split
  all_goals exact ⟨_, _, rfl, by simp_all⟩

/-- What is written behind two quotes, and in front of another character, does not begin with a quote. -/
theorem writeEscaped_head {c : Char} {run : Nat} (h : c ≠ '"' ∨ 2 ≤ run) (s : List Char) :
    ∃ a l, writeEscaped true run (c :: s) = a :: l ∧ a ≠ '"' := by
  by_cases hc : c = '"'
  · have hr : ¬ run < 2 := by
      have := h.resolve_left (fun hn => hn hc)
      omega
    exact ⟨'\\', '"' :: writeEscaped true 0 s, by simp [writeEscaped, hc, hr], by decide⟩
  · obtain ⟨a, l, e, ha⟩ := escaped_head hc true
    exact ⟨a, _, by simp only [writeEscaped, hc, if_false, e, List.cons_append]; rfl, ha⟩

/-- What is written as a block with escapes reads back, behind `run` quotes just written. -/
theorem readBlock_writeEscaped {rest : List Char} (hr : rest.head? ≠ some '"') (s : List Char) :
    ∀ run, run ≤ 2 →
      readBlock .double 0 (writeEscaped true run s ++ (List.replicate 3 '"' ++ rest)) = some (s, rest) := by
  induction s with
  | nil =>
    intro run _
    exact readBlock_close (q := .double) (n := 0) (by omega) hr
  | cons c s ih =>
    intro run hrun
    by_cases hc : c = '"'
    · subst hc
      by_cases h2 : run < 2
      · have step :
            closing? .double (writeEscaped true (run + 1) s ++ (List.replicate 3 '"' ++ rest)) = none →
            readBlock .double 0 (writeEscaped true run ('"' :: s) ++ (List.replicate 3 '"' ++ rest)) =
              some ('"' :: s, rest) := by
          intro hclose
          simp only [writeEscaped, h2, and_self, if_true, List.cons_append, readBlock, Quote.mark, hclose,
            ih (run + 1) (by omega), push, Option.map_some]
        match s with
        | [] =>
          have := readBlock_close (q := .double) (n := 1) (by omega) hr
          simpa [writeEscaped, h2, List.replicate, Quote.mark] using this
        | d :: s =>
          by_cases hd : d ≠ '"' ∨ 2 ≤ run + 1
          · obtain ⟨a, l, e, ha⟩ := writeEscaped_head hd s
            exact step (by rw [e]; exact closing?_of_head_ne ha _)
          · -- two quotes in a row, the first of a run
            have hd' : d = '"' := by simpa using fun h => hd (Or.inl h)
            have hrun0 : run = 0 := by omega
            subst hd' hrun0
            match s with
            | [] =>
              have := readBlock_close (q := .double) (n := 2) (by omega) hr
              simpa [writeEscaped, List.replicate, Quote.mark] using this
            | d :: s =>
              have hright : d ≠ '"' ∨ 2 ≤ 2 := Or.inr (by omega)
              obtain ⟨a, l, e, ha⟩ := writeEscaped_head hright s
              refine step ?_
              have : writeEscaped true (0 + 1) ('"' :: d :: s) = '"' :: a :: l := by
                rw [writeEscaped]
                simpa using e
              rw [this]
              exact closing?_none (by simp [Quote.mark, ha]) _
      · simp only [writeEscaped, h2, and_false, if_true, if_false, List.cons_append]
        have := ih 0 (by omega)
        simp [readBlock, Quote.mark, continuation?, dropSpaces, isSpace, lineBreak?, escape?, letterEscape?,
          push] at this ⊢
        simp [this]
    · simp only [writeEscaped, hc, if_false, List.append_assoc]
      rw [readBlock_escaped hc, ih 0 (by omega)]
      rfl

/-- The longest run is no shorter than one already seen. -/
theorem longestRun_ge (x : Char) (run longest : Nat) (s : List Char) :
    longest ≤ longestRun x run longest s := by
  induction s generalizing run longest with
  | nil => exact Nat.le_refl _
  | cons c s ih =>
    unfold longestRun
    split
    · exact Nat.le_trans (Nat.le_max_left _ _) (ih _ _)
    · exact ih _ _

/-- A longer run seen before makes the longest no shorter. -/
theorem longestRun_mono (x : Char) (run : Nat) {a b : Nat} (h : a ≤ b) (s : List Char) :
    longestRun x run a s ≤ longestRun x run b s := by
  induction s generalizing run a b with
  | nil => exact h
  | cons c s ih =>
    unfold longestRun
    split
    · exact ih _ (by omega)
    · exact ih _ h

/-- A text without escapes and long runs of single quotes reads back as a block between these, behind
`run` quotes. -/
theorem readBlock_raw {rest : List Char} (hr : rest.head? ≠ some '\'') (s : List Char)
    (hs : ∀ c ∈ s, needsEscape c = false) :
    ∀ run, longestRun '\'' run 0 s ≤ 2 →
      readBlock .single 0 (s ++ (List.replicate 3 '\'' ++ rest)) = some (s, rest) := by
  induction s with
  | nil =>
    intro run _
    exact readBlock_close (q := .single) (n := 0) (by omega) hr
  | cons c s ih =>
    intro run hrun
    have htail := ih fun c hc => hs c (by simp [hc])
    by_cases hc : c = '\''
    · subst hc
      have h1 : longestRun '\'' (run + 1) (run + 1) s ≤ 2 := by simpa [longestRun] using hrun
      have hrun1 := longestRun_ge '\'' (run + 1) (run + 1) s
      have hnext := htail (run + 1) (Nat.le_trans (longestRun_mono _ _ (Nat.zero_le _) s) h1)
      have step : closing? .single (s ++ (List.replicate 3 '\'' ++ rest)) = none →
          readBlock .single 0 ('\'' :: s ++ (List.replicate 3 '\'' ++ rest)) = some ('\'' :: s, rest) := by
        intro hclose
        simp only [List.cons_append, readBlock, Quote.mark, if_true, hclose, hnext, push, Option.map_some]
      match s with
      | [] =>
        have := readBlock_close (q := .single) (n := 1) (by omega) hr
        simpa [List.replicate, Quote.mark] using this
      | d :: s =>
        by_cases hd : d = '\''
        · subst hd
          have h2 : longestRun '\'' (run + 1 + 1) (run + 1 + 1) s ≤ 2 := by
            have : max (run + 1) (run + 1 + 1) = run + 1 + 1 := by omega
            simpa [longestRun, this] using h1
          have hrun2 := longestRun_ge '\'' (run + 1 + 1) (run + 1 + 1) s
          match s with
          | [] =>
            have := readBlock_close (q := .single) (n := 2) (by omega) hr
            simpa [List.replicate, Quote.mark] using this
          | e :: s =>
            have he : e ≠ '\'' := by
              intro he
              subst he
              have h3 : longestRun '\'' (run + 1 + 1 + 1) (run + 1 + 1 + 1) s ≤ 2 := by
                have : max (run + 1 + 1) (run + 1 + 1 + 1) = run + 1 + 1 + 1 := by omega
                simpa [longestRun, this] using h2
              have := longestRun_ge '\'' (run + 1 + 1 + 1) (run + 1 + 1 + 1) s
              omega
            exact step (closing?_none (by simp [Quote.mark, he]) _)
        · exact step (closing?_of_head_ne (by simpa [Quote.mark] using hd) _)
    · have hplain : c = '\n' ∨ isPlain c = true := by
        have := hs c (by simp)
        simp only [needsEscape, Bool.and_eq_false_iff, Bool.not_eq_false', decide_eq_false_iff_not] at this
        rcases this with h | h
        · exact Or.inr h
        · exact Or.inl (by simpa using h)
      have hrun0 : longestRun '\'' 0 0 s ≤ 2 := by simpa [longestRun, hc] using hrun
      simp only [List.cons_append, readBlock, Quote.mark, hc, if_false, reduceCtorEq, and_false, hplain,
        if_true, htail 0 hrun0]
      rfl

/-! ## The four styles -/

/-- A text that does not begin with a quote stands on a line. -/
theorem readQuoted_of_head_ne {q : Quote} {a : Char} (h : a ≠ q.mark) (s : List Char) :
    readQuoted q (a :: s) = readLine q 0 (a :: s) := by
  cases s <;> simp [readQuoted, h]

/-- Two quotes with nothing between them are the empty text. -/
theorem readQuoted_empty {q : Quote} {rest : List Char} (hr : rest.head? ≠ some q.mark) :
    readQuoted q (q.mark :: rest) = some ([], rest) := by
  cases rest with
  | nil => simp [readQuoted, readLine]
  | cons c rest =>
    have : ¬ c = q.mark := by simpa using hr
    simp [readQuoted, readLine, this]

/-- Three quotes begin a block. -/
theorem readQuoted_block (q : Quote) (s : List Char) :
    readQuoted q (q.mark :: q.mark :: s) = readBlock q 0 (blockStart s) := by
  simp [readQuoted]

/-- A first line that is not empty is part of its block. -/
theorem blockStart_of_head_ne {a : Char} (hn : a ≠ '\n') (hc : a ≠ '\r') (s : List Char) :
    blockStart (a :: s) = a :: s := by
  unfold blockStart lineBreak?
  split <;> simp_all

/-- A written line between double quotes reads back. -/
theorem readQuoted_double_line (s : List Char) {rest : List Char} (hr : rest.head? ≠ some '"') :
    readQuoted .double (quotedTail .double false s ++ rest) = some (s, rest) := by
  have e : quotedTail .double false s ++ rest = writeEscaped false 0 s ++ '"' :: rest := by
    simp [quotedTail, delimiter, Quote.mark]
  rw [e]
  cases s with
  | nil => exact readQuoted_empty (q := .double) hr
  | cons c s =>
    have : ∃ a l, writeEscaped false 0 (c :: s) = a :: l ∧ a ≠ '"' := by
      by_cases hc : c = '"'
      · exact ⟨'\\', '"' :: writeEscaped false 0 s, by simp [writeEscaped, hc], by decide⟩
      · obtain ⟨a, l, e, ha⟩ := escaped_head hc false
        exact ⟨a, _, by simp only [writeEscaped, hc, if_false, e, List.cons_append]; rfl, ha⟩
    obtain ⟨a, l, e, ha⟩ := this
    have hline := readLine_writeEscaped (c :: s) rest 0
    rw [e] at hline ⊢
    rw [List.cons_append, readQuoted_of_head_ne (q := .double) ha]
    exact hline

/-- A written line between single quotes reads back. -/
theorem readQuoted_single_line {s : List Char} (hs : ∀ c ∈ s, c ≠ '\'' ∧ isPlain c = true)
    {rest : List Char} (hr : rest.head? ≠ some '\'') :
    readQuoted .single (quotedTail .single false s ++ rest) = some (s, rest) := by
  have e : quotedTail .single false s ++ rest = s ++ '\'' :: rest := by
    simp [quotedTail, delimiter, Quote.mark]
  rw [e]
  cases s with
  | nil => exact readQuoted_empty (q := .single) hr
  | cons c s =>
    rw [List.cons_append, readQuoted_of_head_ne (q := .single) (hs c (by simp)).1]
    exact readLine_raw hs rest

/-- A block that does not begin with the end of a line begins behind its quotes. -/
theorem blockStart_eq {s : List Char} (hn : s.head? ≠ some '\n') (hc : s.head? ≠ some '\r') :
    blockStart s = s := by
  cases s with
  | nil => rfl
  | cons a s => exact blockStart_of_head_ne (by simpa using hn) (by simpa using hc) s

/-- What is written first in a block on one line is no part of the end of a line. -/
theorem writeEscaped_head_ne {s : List Char} (hs : '\n' ∉ s) (t : List Char) :
    (writeEscaped true 0 s ++ '"' :: t).head? ≠ some '\n' ∧
      (writeEscaped true 0 s ++ '"' :: t).head? ≠ some '\r' := by
  cases s with
  | nil => simp [writeEscaped]
  | cons c s =>
    have hc : c ≠ '\n' := fun h => hs (by simp [h])
    unfold writeEscaped escaped
    repeat' split
    all_goals simp_all

/-- A written block between double quotes reads back. -/
theorem readQuoted_double_block (s : List Char) {rest : List Char} (hr : rest.head? ≠ some '"') :
    readQuoted .double (quotedTail .double true s ++ rest) = some (s, rest) := by
  have hblock := readBlock_writeEscaped hr s 0 (by omega)
  by_cases hs : '\n' ∈ s
  · have e : quotedTail .double true s ++ rest =
        '"' :: '"' :: '\n' :: (writeEscaped true 0 s ++ (List.replicate 3 '"' ++ rest)) := by
      simp [quotedTail, delimiter, Quote.mark, hs, List.replicate]
    rw [e]
    exact (readQuoted_block .double _).trans hblock
  · have e : quotedTail .double true s ++ rest =
        '"' :: '"' :: (writeEscaped true 0 s ++ (List.replicate 3 '"' ++ rest)) := by
      simp [quotedTail, delimiter, Quote.mark, hs, List.replicate]
    have hhead := writeEscaped_head_ne hs ('"' :: '"' :: rest)
    rw [e]
    refine (readQuoted_block .double _).trans ?_
    have hstart : blockStart (writeEscaped true 0 s ++ (List.replicate 3 '"' ++ rest)) =
        writeEscaped true 0 s ++ (List.replicate 3 '"' ++ rest) := blockStart_eq hhead.1 hhead.2
    rw [hstart]
    exact hblock

/-- A written block between single quotes reads back. -/
theorem readQuoted_single_block {s : List Char} (hs : ∀ c ∈ s, needsEscape c = false)
    (hrun : longestRun '\'' 0 0 s ≤ 2) {rest : List Char} (hr : rest.head? ≠ some '\'') :
    readQuoted .single (quotedTail .single true s ++ rest) = some (s, rest) := by
  have hblock := readBlock_raw hr s hs 0 hrun
  by_cases hn : '\n' ∈ s
  · have e : quotedTail .single true s ++ rest =
        '\'' :: '\'' :: '\n' :: (s ++ (List.replicate 3 '\'' ++ rest)) := by
      simp [quotedTail, delimiter, Quote.mark, hn, List.replicate]
    rw [e]
    exact (readQuoted_block .single _).trans hblock
  · have e : quotedTail .single true s ++ rest =
        '\'' :: '\'' :: (s ++ (List.replicate 3 '\'' ++ rest)) := by
      simp [quotedTail, delimiter, Quote.mark, hn, List.replicate]
    have hhead : (s ++ (List.replicate 3 '\'' ++ rest)).head? ≠ some '\n' ∧
        (s ++ (List.replicate 3 '\'' ++ rest)).head? ≠ some '\r' := by
      cases s with
      | nil => simp [List.replicate]
      | cons c s =>
        have hc : c ≠ '\n' := fun h => hn (by simp [h])
        have hcr : c ≠ '\r' := by
          rintro rfl
          exact absurd (hs '\r' (by simp)) (by decide)
        simp [hc, hcr]
    rw [e]
    refine (readQuoted_block .single _).trans ?_
    rw [blockStart_eq hhead.1 hhead.2]
    exact hblock

/-- A run is counted wherever it is met. -/
theorem longestRun_pos {x : Char} {s : List Char} (h : x ∈ s) (run longest : Nat) :
    0 < longestRun x run longest s := by
  induction s generalizing run longest with
  | nil => simp at h
  | cons c s ih =>
    unfold longestRun
    split
    · have := longestRun_ge x (run + 1) (max longest (run + 1)) s
      omega
    · next hc => exact ih (by simpa [Ne.symm hc] using h) _ _

/-- A text between the quotes chosen for it reads back, whatever follows that is no quote of that kind. -/
theorem readQuoted_quotedTail (s : List Char) {rest : List Char} (hr : rest.head? ≠ some (style s).1.mark) :
    readQuoted (style s).1 (quotedTail (style s).1 (style s).2 s ++ rest) = some (s, rest) := by
  unfold style at hr ⊢
  simp only at hr ⊢
  split at hr
  · next h => simp only [h, if_true]; exact readQuoted_double_line s hr
  next h1 =>
  simp only [h1, if_false, Bool.false_eq_true] at hr ⊢
  split at hr
  · next h =>
    simp only [h, if_true]
    simp only [Bool.and_eq_true, Bool.not_eq_true', List.any_eq_false, decide_eq_true_eq] at h
    refine readQuoted_single_line (fun c hc => ⟨?_, ?_⟩) hr
    · rintro rfl
      have := longestRun_pos hc 0 0
      omega
    · have hne : c ≠ '\n' := by
        rintro rfl
        have := h.2
        simp_all
      have := h.1.1 c hc
      simpa [needsEscape, hne] using this
  next h2 =>
  simp only [h2, if_false, Bool.false_eq_true] at hr ⊢
  split at hr
  · next h => simp only [h, if_true]; exact readQuoted_double_block s hr
  next h3 =>
  simp only [h3, if_false, Bool.false_eq_true] at hr ⊢
  split at hr
  · next h =>
    simp only [h, if_true]
    simp only [Bool.and_eq_true, Bool.not_eq_true', List.any_eq_false, decide_eq_true_eq] at h
    exact readQuoted_single_block (fun c hc => by simpa using h.1 c hc) h.2 hr
  next h4 =>
  simp only [h4, if_false, Bool.false_eq_true] at hr ⊢
  cases s.contains '\n'
  · exact readQuoted_double_line s hr
  · exact readQuoted_double_block s hr

end Toml
end VoucherGateway
