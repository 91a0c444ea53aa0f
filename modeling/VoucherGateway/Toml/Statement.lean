import VoucherGateway.Toml.Moment
import VoucherGateway.Toml.Number
import VoucherGateway.Toml.Quoted
import VoucherGateway.Toml.Tree

/-!
# Toml statement — the lines of a settings file

Each line is a heading, an entry, or nothing.  A value may run over several lines.  Every reader takes a
text from its front and returns what follows.
-/

namespace VoucherGateway
namespace Toml

/-- A line. -/
inductive Statement
  | blank
  | table (path : List String)
  | element (path : List String)
  | entry (key : List String) (v : Value)

/-- The values inside each other, and the parts of a dotted key, that are read. -/
def maxDepth : Nat := 79

/-! ## Keys -/

/-- Characters of keys without quotes. -/
def isBareKey (c : Char) : Bool := c.isAlphanum || c = '-' || c = '_'

/-- Reads one part of a key. -/
def readKeyPart (s : List Char) : Option (String × List Char) :=
  match s with
  | '"' :: rest => (readLine .double 0 rest).map fun r => (String.ofList r.1, r.2)
  | '\'' :: rest => (readLine .single 0 rest).map fun r => (String.ofList r.1, r.2)
  | _ =>
    let name := s.takeWhile isBareKey
    if name.isEmpty then none else some (String.ofList name, s.drop name.length)

/-- Reads a key of at most `parts` parts, and the blanks around it. -/
def readKey : (parts : Nat) → List Char → Option (List String × List Char)
  | 0, _ => none
  | parts + 1, s =>
    match readKeyPart (dropSpaces s) with
    | none => none
    | some (part, rest) =>
      match dropSpaces rest with
      | '.' :: rest => (readKey parts rest).map fun r => (part :: r.1, r.2)
      | rest => some ([part], rest)

/-! ## Values -/

/-- Characters of words. -/
def isWordChar (c : Char) : Bool := c.isAlphanum || c = '+' || c = '-' || c = '_' || c = '.' || c = ':'

/-- The scalar that a word is. -/
def scalarOf? (word : List Char) : Option Scalar :=
  if word = "true".toList then some (.truth true)
  else if word = "false".toList then some (.truth false)
  else
    match readInteger word with
    | some n => some (.integer n)
    | none =>
      if isReal word then some (.real (String.ofList word))
      else if isMoment word then some (.moment (String.ofList word))
      else none

/-- Reads a word.  A date takes the word behind one blank with it as a time. -/
def readWord (s : List Char) : Option (Scalar × List Char) :=
  let word := s.takeWhile isWordChar
  let rest := s.drop word.length
  -- the time of a date may follow it behind a single blank
  let second := match rest with
    | ' ' :: more => if isDate word then more.takeWhile isWordChar else []
    | _ => []
  if second.isEmpty then (scalarOf? word).map (·, rest)
  else if isZonedTime second then
    some (.moment (String.ofList (word ++ ' ' :: second)), rest.drop (second.length + 1))
  else none

/-- Reads a scalar. -/
def readScalar (s : List Char) : Option (Scalar × List Char) :=
  match s with
  | '"' :: rest => (readQuoted .double rest).map fun r => (.text (String.ofList r.1), r.2)
  | '\'' :: rest => (readQuoted .single rest).map fun r => (.text (String.ofList r.1), r.2)
  | _ => readWord s

/-- Reads at most `count` items of an array behind its opening bracket, with the closing one. -/
def readItems (item : List Char → Option (Value × List Char)) :
    (count : Nat) → List Char → Option (List Value × List Char)
  | 0, _ => none
  | count + 1, s =>
    match dropGap false s with
    | ']' :: rest => some ([], rest)
    | start =>
      match item start with
      | none => none
      | some (v, rest) =>
        match dropGap false rest with
        | ',' :: rest => (readItems item count rest).map fun r => (v :: r.1, r.2)
        | ']' :: rest => some ([v], rest)
        | _ => none

/-- Reads an entry. -/
def readEntry (item : List Char → Option (Value × List Char)) (s : List Char) :
    Option ((List String × Value) × List Char) :=
  match readKey maxDepth s with
  | some (key, '=' :: rest) => (item (dropSpaces rest)).map fun r => ((key, r.1), r.2)
  | _ => none

/-- Reads at most `count` entries of a table inside a value, with the closing brace. -/
def readPairs (item : List Char → Option (Value × List Char)) :
    (count : Nat) → List Char → Option (List (List String × Value) × List Char)
  | 0, _ => none
  | count + 1, s =>
    match readEntry item s with
    | none => none
    | some (pair, rest) =>
      match dropSpaces rest with
      | ',' :: rest => (readPairs item count rest).map fun r => (pair :: r.1, r.2)
      | '\x7d' :: rest => some ([pair], rest)
      | _ => none

/-- Reads a table inside a value behind its opening brace. -/
def readInlineTable (item : List Char → Option (Value × List Char)) (s : List Char) :
    Option (Value × List Char) :=
  match dropSpaces s with
  | '\x7d' :: rest => some (.table [], rest)
  | start =>
    match readPairs item start.length start with
    | none => none
    | some (pairs, rest) => (inlineTable pairs).map (·, rest)

/-- Reads a value with at most `depth` arrays and tables inside each other. -/
def readValue : (depth : Nat) → List Char → Option (Value × List Char)
  | 0, s => (readScalar s).map fun r => (.scalar r.1, r.2)
  | depth + 1, s =>
    match s with
    | '[' :: rest => (readItems (readValue depth) s.length rest).map fun r => (.array r.1, r.2)
    | '\x7b' :: rest => readInlineTable (readValue depth) rest
    | _ => (readScalar s).map fun r => (.scalar r.1, r.2)

/-! ## Lines -/

/-- Reads a heading behind its first bracket. -/
def readHeading (s : List Char) : Option (Statement × List Char) :=
  match s with
  | '[' :: rest =>
    match readKey maxDepth rest with
    | some (path, ']' :: ']' :: rest) => (endLine rest).map (.element path, ·)
    | _ => none
  | _ =>
    match readKey maxDepth s with
    | some (path, ']' :: rest) => (endLine rest).map (.table path, ·)
    | _ => none

/-- Reads a line. -/
def readStatement (s : List Char) : Option (Statement × List Char) :=
  match endLine s with
  | some rest => some (.blank, rest)
  | none =>
    match dropSpaces s with
    | '[' :: rest => readHeading rest
    | start =>
      match readEntry (readValue maxDepth) start with
      | none => none
      | some (pair, rest) => (endLine rest).map (.entry pair.1 pair.2, ·)

/-- Reads at most `count` lines. -/
def readStatements : (count : Nat) → List Char → Option (List Statement)
  | _, [] => some []
  | 0, _ :: _ => none
  | count + 1, s =>
    match readStatement s with
    | none => none
    | some (statement, rest) => (readStatements count rest).map (statement :: ·)

/-- The lines of a text. -/
def statements (s : List Char) : Option (List Statement) := readStatements s.length s

end Toml
end VoucherGateway
