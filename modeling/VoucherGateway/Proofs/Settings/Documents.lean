import Mathlib.Data.List.Nodup
import VoucherGateway.Proofs.Settings.Scalars

/-!
# Documents — reading back a whole file

A written file is a run of lines, each of which is read back from the front of whatever follows it.  Names that are
different make the entries of one table, and the tables of the file.

Main statement: `parse_write`.
-/

namespace VoucherGateway
namespace Toml

/-! ## Keys -/

/-- Names that are written without quotes. -/
def isBareName (name : String) : Bool := !name.toList.isEmpty && name.toList.all isBareKey

section Keys

variable {name : String} {c : Char} {rest : List Char}

theorem isBareName_iff : isBareName name = true ↔ name.toList ≠ [] ∧ ∀ c ∈ name.toList, isBareKey c = true := by
  simp [isBareName]

theorem isBareName.starts (h : isBareName name = true) :
    ∃ c more, name.toList = c :: more ∧ isBareKey c = true := by
  obtain ⟨hne, hbare⟩ := isBareName_iff.1 h
  obtain ⟨c, more, heq⟩ := List.exists_cons_of_ne_nil hne
  exact ⟨c, more, heq, hbare c (heq ▸ List.mem_cons_self)⟩

/-- Characters are different if a class has one and not the other. -/
theorem ne_of_class {p : Char → Bool} {d : Char} (hc : p c = true) (hd : p d = false) : c ≠ d := by
  rintro rfl
  rw [hc] at hd
  cases hd

/-- No class without blanks has a character that separates words. -/
theorem dropSpaces_of_class {p : Char → Bool} (hc : p c = true) (hblank : p ' ' = false) (htab : p '\t' = false) :
    dropSpaces (c :: rest) = c :: rest := by
  have hspace : isSpace c = false := by simp [isSpace, ne_of_class hc hblank, ne_of_class hc htab]
  simp [dropSpaces, hspace]

/-- A name ends where something else begins. -/
theorem readKeyPart_name (h : isBareName name = true) (hc : isBareKey c = false) :
    readKeyPart (name.toList ++ c :: rest) = some (name, c :: rest) := by
  obtain ⟨hne, hbare⟩ := isBareName_iff.1 h
  obtain ⟨d, more, heq, hd⟩ := isBareName.starts h
  have htake : (name.toList ++ c :: rest).takeWhile isBareKey = name.toList := by
    rw [List.takeWhile_append_of_pos hbare]
    simp [hc]
  have hfound : readKeyPart (name.toList ++ c :: rest) =
      let key := (name.toList ++ c :: rest).takeWhile isBareKey
      if key.isEmpty then none else some (String.ofList key, (name.toList ++ c :: rest).drop key.length) := by
    unfold readKeyPart
    split
    · next hquote =>
      rw [heq] at hquote
      exact absurd (List.cons.inj hquote).1 (ne_of_class hd (by decide))
    · next hquote =>
      rw [heq] at hquote
      exact absurd (List.cons.inj hquote).1 (ne_of_class hd (by decide))
    · rfl
  simp only [hfound, htake, List.isEmpty_iff, hne, if_false, List.drop_left, String.ofList_toList]

/-- A name is a key of one part. -/
theorem readKey_name (h : isBareName name = true) (hc : isBareKey c = false)
    (hdot : (dropSpaces (c :: rest)).head? ≠ some '.') (parts : Nat) :
    readKey (parts + 1) (name.toList ++ c :: rest) = some ([name], dropSpaces (c :: rest)) := by
  obtain ⟨d, more, heq, hd⟩ := isBareName.starts h
  have hstart : dropSpaces (name.toList ++ c :: rest) = name.toList ++ c :: rest := by
    rw [heq]
    exact dropSpaces_of_class hd (by decide) (by decide)
  unfold readKey
  rw [hstart, readKeyPart_name h hc]
  dsimp only
  split
  · next hrest =>
    rw [hrest] at hdot
    exact absurd rfl hdot
  · rfl

/-- What starts with something to read is not the end of a line. -/
theorem endLine_of_class {p : Char → Bool} (hc : p c = true)
    (hends : [' ', '\t', '#', '\n', '\r'].all (p · = false) = true) : endLine (c :: rest) = none := by
  simp only [List.all_cons, List.all_nil, Bool.and_true, Bool.and_eq_true, decide_eq_true_eq] at hends
  obtain ⟨hblank, htab, hcomment, hfeed, hreturn⟩ := hends
  have hkept : dropComment (c :: rest) = c :: rest := by
    unfold dropComment
    split
    · next heq => exact absurd (List.cons.inj heq).1 (ne_of_class hc hcomment)
    · rfl
  unfold endLine
  rw [dropSpaces_of_class hc hblank htab, hkept]
  dsimp only
  unfold lineBreak?
  split
  · next heq => exact absurd (List.cons.inj heq).1 (ne_of_class hc hfeed)
  · next heq => exact absurd (List.cons.inj heq).1 (ne_of_class hc hreturn)
  · rfl

end Keys

/-! ## Lines -/

/-- A line as it is written, and what it says. -/
structure Line where
  text : List Char
  meaning : Statement

/-- A line that is read back from the front of any text, and does not look like the mark in front of a file. -/
structure Line.Readable (l : Line) : Prop where
  starts : ∃ c more, l.text = c :: more ∧ c ≠ '\uFEFF'
  read : ∀ rest, readStatement (l.text ++ rest) = some (l.meaning, rest)

/-- The line of an entry. -/
def entryLine (entry : String × Scalar) : Line := ⟨writeLine entry, .entry [entry.1] (.scalar entry.2)⟩

/-- The line of a heading. -/
def headingLine (name : String) : Line := ⟨'[' :: name.toList ++ "]\n".toList, .table [name]⟩

/-- The lines of a table: an empty one, its heading, and its entries. -/
def tableLines (table : String × List (String × Scalar)) : List Line :=
  ⟨['\n'], .blank⟩ :: headingLine table.1 :: table.2.map entryLine

/-- The lines of a file. -/
def Document.lines (d : Document) : List Line := d.top.map entryLine ++ d.tables.flatMap tableLines

section Lines

variable {name : String} {x : Scalar}

/-- A file is written line by line. -/
theorem write_eq_lines (d : Document) : d.write.toList = d.lines.flatMap Line.text := by
  have hentries : ∀ es : List (String × Scalar), (es.map entryLine).flatMap Line.text = es.flatMap writeLine := by
    intro es
    rw [List.flatMap_map]
    rfl
  have htables : ∀ t, (tableLines t).flatMap Line.text = writeTable t := by
    intro t
    simp [tableLines, headingLine, writeTable, hentries]
  simp only [Document.write, Document.lines, String.toList_ofList, List.flatMap_append, hentries,
    List.flatMap_assoc, htables]

/-- A value that is a scalar is read as one. -/
theorem readValue_write (hx : x.Sound) (rest : List Char) :
    readValue maxDepth (x.write ++ '\n' :: rest) = some (.scalar x, '\n' :: rest) := by
  have hread := readScalar_write hx rest
  obtain ⟨c, more, heq, hc⟩ := Scalar.write_starts hx
  unfold maxDepth readValue
  rw [heq] at hread ⊢
  -- an array and a table start with their brackets
  split
  · next h => exact absurd (List.cons.inj h).1 (ne_of_class hc (by decide))
  · next h => exact absurd (List.cons.inj h).1 (ne_of_class hc (by decide))
  · rw [hread, Option.map_some]

theorem readEntry_line (h : isBareName name = true) (hx : x.Sound) (rest : List Char) :
    readEntry (readValue maxDepth) (writeLine (name, x) ++ rest) = some (([name], .scalar x), '\n' :: rest) := by
  have htext : writeLine (name, x) ++ rest =
      name.toList ++ ' ' :: '=' :: ' ' :: (x.write ++ '\n' :: rest) := by
    simp [writeLine]
  have hkey : readKey maxDepth (name.toList ++ ' ' :: '=' :: ' ' :: (x.write ++ '\n' :: rest)) =
      some ([name], '=' :: ' ' :: (x.write ++ '\n' :: rest)) :=
    readKey_name h (by decide) (by simp [dropSpaces, isSpace]) 78
  have hvalue : dropSpaces (' ' :: (x.write ++ '\n' :: rest)) = x.write ++ '\n' :: rest := by
    obtain ⟨c, more, heq, hc⟩ := Scalar.write_starts hx
    rw [heq]
    exact dropSpaces_of_class hc (by decide) (by decide)
  unfold readEntry
  rw [htext, hkey]
  change (readValue maxDepth (dropSpaces (' ' :: (x.write ++ '\n' :: rest)))).map _ = _
  rw [hvalue, readValue_write hx, Option.map_some]

theorem readable_entryLine (h : isBareName name = true) (hx : x.Sound) : (entryLine (name, x)).Readable where
  starts := by
    obtain ⟨c, more, heq, hc⟩ := isBareName.starts h
    refine ⟨c, more ++ (" = ".toList ++ x.write ++ ['\n']), ?_, ne_of_class hc (by decide)⟩
    simp [entryLine, writeLine, heq]
  read := fun rest => by
    obtain ⟨c, more, heq, hc⟩ := isBareName.starts h
    have htext : writeLine (name, x) ++ rest = c :: (more ++ (" = ".toList ++ x.write ++ '\n' :: rest)) := by
      simp [writeLine, heq]
    have hends : endLine (writeLine (name, x) ++ rest) = none := by
      rw [htext]
      exact endLine_of_class hc (by decide)
    have hstart : dropSpaces (writeLine (name, x) ++ rest) = writeLine (name, x) ++ rest := by
      rw [htext]
      exact dropSpaces_of_class hc (by decide) (by decide)
    simp only [entryLine, readStatement, hends, hstart]
    split
    · next hbracket =>
      rw [htext] at hbracket
      exact absurd (List.cons.inj hbracket).1 (ne_of_class hc (by decide))
    · rw [readEntry_line h hx]
      rfl

theorem readable_blank : Line.Readable ⟨['\n'], .blank⟩ where
  starts := ⟨'\n', [], rfl, by decide⟩
  read := fun _ => rfl

theorem readable_headingLine (h : isBareName name = true) : (headingLine name).Readable where
  starts := ⟨'[', _, rfl, by decide⟩
  read := fun rest => by
    have hkey : readKey maxDepth (name.toList ++ ']' :: '\n' :: rest) = some ([name], ']' :: '\n' :: rest) :=
      readKey_name h (by decide) (by simp [dropSpaces, isSpace]) 78
    obtain ⟨c, more, heq, hc⟩ := isBareName.starts h
    have htext : (headingLine name).text ++ rest = '[' :: (name.toList ++ ']' :: '\n' :: rest) := by
      simp [headingLine]
    have hends : endLine ('[' :: (name.toList ++ ']' :: '\n' :: rest)) = none :=
      endLine_of_class (p := (· = '[')) (by decide) (by decide)
    have hstart : dropSpaces ('[' :: (name.toList ++ ']' :: '\n' :: rest)) =
        '[' :: (name.toList ++ ']' :: '\n' :: rest) := rfl
    have hheading : readHeading (name.toList ++ ']' :: '\n' :: rest) = some (.table [name], rest) := by
      unfold readHeading
      split
      · next hbracket =>
        rw [heq] at hbracket
        exact absurd (List.cons.inj hbracket).1 (ne_of_class hc (by decide))
      · rw [hkey]
        rfl
    rw [htext]
    simp only [readStatement, hends, hstart, hheading]
    rfl

/-! ## Runs of lines -/

/-- As many lines are read as there are. -/
theorem readStatements_lines {lines : List Line} (h : ∀ l ∈ lines, l.Readable) (more : Nat) :
    readStatements (more + lines.length) (lines.flatMap Line.text) = some (lines.map Line.meaning) := by
  induction lines with
  | nil =>
    unfold readStatements
    rfl
  | cons l rest ih =>
    obtain ⟨c, tail, heq, -⟩ := (h l List.mem_cons_self).starts
    have hread := (h l List.mem_cons_self).read (rest.flatMap Line.text)
    have hrest := ih fun x hx => h x (List.mem_cons_of_mem _ hx)
    rw [List.flatMap_cons, List.length_cons, ← Nat.add_assoc]
    rw [heq, List.cons_append] at hread ⊢
    unfold readStatements
    rw [hread]
    dsimp only
    rw [hrest, Option.map_some, List.map_cons]

/-- No line is without text. -/
theorem length_le_flatMap {lines : List Line} (h : ∀ l ∈ lines, l.Readable) :
    lines.length ≤ (lines.flatMap Line.text).length := by
  induction lines with
  | nil => exact Nat.le_refl _
  | cons l rest ih =>
    obtain ⟨c, tail, heq, -⟩ := (h l List.mem_cons_self).starts
    have hrest := ih fun x hx => h x (List.mem_cons_of_mem _ hx)
    simp only [List.flatMap_cons, List.length_append, List.length_cons, heq]
    omega

theorem statements_lines {lines : List Line} (h : ∀ l ∈ lines, l.Readable) :
    statements (lines.flatMap Line.text) = some (lines.map Line.meaning) := by
  obtain ⟨more, hmore⟩ := Nat.exists_eq_add_of_le' (length_le_flatMap h)
  rw [statements, hmore]
  exact readStatements_lines h more

theorem dropMark_lines {lines : List Line} (h : ∀ l ∈ lines, l.Readable) :
    dropMark (lines.flatMap Line.text) = lines.flatMap Line.text := by
  cases lines with
  | nil => rfl
  | cons l rest =>
    obtain ⟨c, tail, heq, hmark⟩ := (h l List.mem_cons_self).starts
    rw [List.flatMap_cons, heq, List.cons_append]
    unfold dropMark
    split
    · next hc => exact absurd (List.cons.inj hc).1 hmark
    · rfl

end Lines

/-! ## Entries and tables -/

/-- An entry as a file says it. -/
def spoken (entry : String × Scalar) : List String × Value := ([entry.1], .scalar entry.2)

/-- An entry of a table. -/
def leaf (entry : String × Scalar) : String × Node := (entry.1, .value (.scalar entry.2))

/-- A table under its heading. -/
def branch (table : String × List (String × Scalar)) : String × Node :=
  (table.1, .table .heading (table.2.map leaf))

section Tables

variable {es : Entries} {name : String} {entries : List (String × Scalar)}
  {tables : List (String × List (String × Scalar))}

theorem parts_entries (entries : List (String × Scalar)) (rest : List Statement) :
    parts ((entries.map entryLine).map Line.meaning ++ rest) =
      (entries.map spoken ++ (parts rest).1, (parts rest).2) := by
  induction entries with
  | nil => rfl
  | cons e entries ih => simp only [List.map_cons, List.cons_append, entryLine, parts, ih, spoken]

theorem parts_tables (tables : List (String × List (String × Scalar))) :
    parts ((tables.flatMap tableLines).map Line.meaning) =
      ([], tables.map fun t => ⟨.table [t.1], t.2.map spoken⟩) := by
  induction tables with
  | nil => rfl
  | cons t tables ih =>
    simp only [List.flatMap_cons, tableLines, headingLine, List.cons_append, List.map_cons, List.map_append, parts,
      parts_entries, ih, List.append_nil]

theorem lookup_eq_none (h : name ∉ es.map Prod.fst) : es.lookup name = none := by
  rw [List.lookup_eq_none_iff]
  intro e he
  have hne : name ≠ e.1 := fun heq => h (heq ▸ List.mem_map_of_mem he)
  simpa using hne

/-- A new name goes to the end. -/
theorem assign_name (h : name ∉ es.map Prod.fst) (v : Value) :
    Entries.assign [name] v es = some (es ++ [(name, .value v)]) := by
  simp [Entries.assign, Entries.descend, Entries.add, lookup_eq_none h]

/-- What goes to the end one by one, each under a new name, stands there in a row. -/
theorem foldlM_of_new {α : Type} {add : Entries → α → Option Entries} {added : α → String × Node} {xs : List α}
    (hadd : ∀ x ∈ xs, ∀ es : Entries, (added x).1 ∉ es.map Prod.fst → add es x = some (es ++ [added x]))
    (h : ((es ++ xs.map added).map Prod.fst).Nodup) : xs.foldlM add es = some (es ++ xs.map added) := by
  induction xs generalizing es with
  | nil => simp
  | cons x xs ih =>
    have hnew : (added x).1 ∉ es.map Prod.fst := by
      rw [List.map_append] at h
      exact fun hmem => (List.nodup_append.1 h).2.2 _ hmem _ List.mem_cons_self rfl
    have hnext : ((es ++ [added x]) ++ xs.map added).map Prod.fst = (es ++ (x :: xs).map added).map Prod.fst := by
      simp
    rw [List.foldlM_cons, hadd x List.mem_cons_self es hnew]
    refine (ih (fun y hy => hadd y (List.mem_cons_of_mem _ hy)) (hnext ▸ h)).trans ?_
    simp

theorem assignAll_spoken (h : (entries.map Prod.fst).Nodup) :
    Entries.assignAll (entries.map spoken) [] = some (entries.map leaf) := by
  have hnames : ((([] : Entries) ++ entries.map leaf).map Prod.fst).Nodup := by
    rwa [List.nil_append, List.map_map]
  rw [Entries.assignAll, List.foldlM_map]
  exact foldlM_of_new (fun e _ es hnew => assign_name hnew (.scalar e.2)) hnames

/-- A new table goes to the end as well. -/
theorem addTable_name (h : name ∉ es.map Prod.fst) (hkeys : (entries.map Prod.fst).Nodup) :
    Entries.addTable [name] (entries.map spoken) es = some (es ++ [branch (name, entries)]) := by
  have hothers : Entries.erase name es = es := by
    refine List.filter_eq_self.2 fun e he => ?_
    have hne : e.1 ≠ name := fun heq => h (heq ▸ List.mem_map_of_mem he)
    simpa using hne
  simp [Entries.addTable, Entries.descend, lookup_eq_none h, assignAll_spoken hkeys, hothers, branch]

theorem foldlM_addTo (hkeys : ∀ t ∈ tables, (t.2.map Prod.fst).Nodup)
    (h : (es.map Prod.fst ++ tables.map Prod.fst).Nodup) :
    (tables.map fun t => (⟨.table [t.1], t.2.map spoken⟩ : Part)).foldlM Part.addTo es =
      some (es ++ tables.map branch) := by
  have hnames : ((es ++ tables.map branch).map Prod.fst).Nodup := by
    rwa [List.map_append, List.map_map]
  rw [List.foldlM_map]
  exact foldlM_of_new (fun t ht es hnew => addTable_name hnew (hkeys t ht)) hnames

theorem finishEntries_eq (es : Entries) : finishEntries es = es.map fun e => (e.1, e.2.finish) := by
  induction es with
  | nil => rw [finishEntries, List.map_nil]
  | cons e es ih => rw [finishEntries, ih, List.map_cons]

end Tables

/-! ## Files -/

/-- Entries with names that need no quotes, none of them twice, and scalars that read back. -/
structure SoundEntries (entries : List (String × Scalar)) : Prop where
  bare : ∀ name ∈ entries.map Prod.fst, isBareName name = true
  scalars : ∀ e ∈ entries, e.2.Sound
  keys : (entries.map Prod.fst).Nodup

/-- Sound entries at the top and in every table, with different names for all of them. -/
structure Document.Sound (d : Document) : Prop where
  top : SoundEntries d.top
  headings : ∀ name ∈ d.tables.map Prod.fst, isBareName name = true
  entries : ∀ t ∈ d.tables, SoundEntries t.2
  names : (d.top.map Prod.fst ++ d.tables.map Prod.fst).Nodup

section Files

variable {d : Document}

theorem SoundEntries.readable {entries : List (String × Scalar)} (h : SoundEntries entries) :
    ∀ l ∈ entries.map entryLine, l.Readable := by
  intro l hl
  obtain ⟨e, he, rfl⟩ := List.mem_map.1 hl
  exact readable_entryLine (h.bare e.1 (List.mem_map_of_mem he)) (h.scalars e he)

theorem Document.Sound.readable (h : d.Sound) : ∀ l ∈ d.lines, l.Readable := by
  intro l hl
  rcases List.mem_append.1 hl with hl | hl
  · exact h.top.readable l hl
  · obtain ⟨t, ht, hl⟩ := List.mem_flatMap.1 hl
    rcases List.mem_cons.1 hl with rfl | hl
    · exact readable_blank
    rcases List.mem_cons.1 hl with rfl | hl
    · exact readable_headingLine (h.headings t.1 (List.mem_map_of_mem ht))
    · exact (h.entries t ht).readable l hl

/-- The lines of a file make the tables that it was written for. -/
theorem assemble_lines (h : d.Sound) : assemble (d.lines.map Line.meaning) = some d.value := by
  have hparts : parts (d.lines.map Line.meaning) =
      (d.top.map spoken, d.tables.map fun t => ⟨.table [t.1], t.2.map spoken⟩) := by
    rw [Document.lines, List.map_append, parts_entries, parts_tables, List.append_nil]
  have htop : Entries.assignAll (d.top.map spoken) [] = some (d.top.map leaf) :=
    assignAll_spoken h.top.keys
  have hnames : (d.top.map leaf).map Prod.fst = d.top.map Prod.fst := by
    rw [List.map_map]
    rfl
  have htables : (d.tables.map fun t => (⟨.table [t.1], t.2.map spoken⟩ : Part)).foldlM Part.addTo (d.top.map leaf) =
      some (d.top.map leaf ++ d.tables.map branch) := foldlM_addTo (fun t ht => (h.entries t ht).keys) (hnames ▸ h.names)
  have hleaf : ∀ e, (leaf e).2.finish = .scalar e.2 := fun e => by rw [leaf, Node.finish]
  have hbranch : ∀ t, (branch t).2.finish = .table (t.2.map fun e => (e.1, .scalar e.2)) := by
    intro t
    rw [branch, Node.finish, finishEntries_eq, List.map_map]
    simp only [Function.comp_def, hleaf]
    rfl
  calc
    assemble (d.lines.map Line.meaning) = some (.table (finishEntries (d.top.map leaf ++ d.tables.map branch))) := by
      simp only [assemble, hparts, htop, htables, Option.bind_eq_bind, Option.bind_some, Option.pure_def]
    _ = some d.value := by
      rw [finishEntries_eq, List.map_append, List.map_map, List.map_map]
      simp only [Function.comp_def, hleaf, hbranch]
      rfl

/-- What is written of a file is read back as what the file says. -/
theorem parse_write (h : d.Sound) : parse d.write = some d.value := by
  rw [parse, write_eq_lines, dropMark_lines h.readable, statements_lines h.readable, Option.bind_some,
    assemble_lines h]

end Files

end Toml
end VoucherGateway
