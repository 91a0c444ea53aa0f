import VoucherGateway.Text.Radix
import VoucherGateway.Toml.Layout

/-!
# Toml quoted — texts between quotes

A text stands between double or single quotes, one of them around a text on one line, three around a block
of lines.  Escapes are known between double quotes only.  Readers return the text and what follows it.
-/

namespace VoucherGateway
namespace Toml

/-- The two kinds of quotes. -/
inductive Quote
  | double
  | single
  deriving DecidableEq, Repr

/-- The character of a quote. -/
def Quote.mark : Quote → Char
  | .double => '"'
  | .single => '\''

/-- Puts a character in front of a text that was read. -/
def push (c : Char) (result : Option (List Char × List Char)) : Option (List Char × List Char) :=
  result.map fun r => (c :: r.1, r.2)

/-! ## Escapes -/

/-- The character with a code point. -/
def charOf? (code : Nat) : Option Char :=
  if h : code.isValidChar then some (Char.ofNatAux code h) else none

/-- The character whose code point stands in front, in as many digits as told. -/
def codePoint? (digits : Nat) (s : List Char) : Option Char :=
  if s.length < digits then none else (Text.readBase 16 (s.take digits)).bind charOf?

/-- The character named by one letter. -/
def letterEscape? (c : Char) : Option Char :=
  if c = 'b' then some '\x08'
  else if c = 't' then some '\t'
  else if c = 'n' then some '\n'
  else if c = 'f' then some '\x0c'
  else if c = 'r' then some '\r'
  else if c = '"' then some '"'
  else if c = '\\' then some '\\'
  else none

/-- The character that an escape stands for and the characters it takes behind the backslash. -/
def escape? : List Char → Option (Char × Nat)
  | [] => none
  | c :: rest =>
    if c = 'u' then (codePoint? 4 rest).map (·, 5)
    else if c = 'U' then (codePoint? 8 rest).map (·, 9)
    else (letterEscape? c).map (·, 1)

/-- The characters that a backslash at the end of a line takes with it: everything up to the next one that
is neither blank nor the end of a line. -/
def continuation? (s : List Char) : Option Nat :=
  (lineBreak? (dropSpaces s)).map fun _ => s.length - (dropLines s).length

/-! ## Readers -/

/-- Reads a text on one line behind its opening quote; `skip` characters in front are already used up. -/
def readLine (q : Quote) : (skip : Nat) → List Char → Option (List Char × List Char)
  | _, [] => none
  | skip + 1, _ :: rest => readLine q skip rest
  | 0, c :: rest =>
    if c = q.mark then some ([], rest)
    else if c = '\\' ∧ q = .double then
      match escape? rest with
      | none => none
      | some (x, taken) => push x (readLine q taken rest)
    else if isPlain c then push c (readLine q 0 rest)
    else none

/-- The quotes that belong to the text when a quote stands in front of `rest`: a block ends with three
quotes, and up to two more in front of them are part of it. -/
def closing? (q : Quote) (rest : List Char) : Option Nat :=
  let quotes := ((rest.take 4).takeWhile (· = q.mark)).length
  if 2 ≤ quotes then some (quotes - 2) else none

/-- Reads a block behind its opening quotes; `skip` characters in front are already used up. -/
def readBlock (q : Quote) : (skip : Nat) → List Char → Option (List Char × List Char)
  | _, [] => none
  | skip + 1, _ :: rest => readBlock q skip rest
  | 0, c :: rest =>
    if c = q.mark then
      match closing? q rest with
      | some inside => some (List.replicate inside q.mark, rest.drop (inside + 2))
      | none => push c (readBlock q 0 rest)
    else if c = '\\' ∧ q = .double then
      match continuation? rest with
      | some taken => readBlock q taken rest
      | none =>
        match escape? rest with
        | none => none
        | some (x, taken) => push x (readBlock q taken rest)
    else if c = '\n' ∨ isPlain c then push c (readBlock q 0 rest)
    -- the line feed behind a carriage return stands for both
    else if c = '\r' ∧ rest.head? = some '\n' then readBlock q 0 rest
    else none

/-- The rest of a block whose first line may be empty. -/
def blockStart (s : List Char) : List Char := (lineBreak? s).getD s

/-- Reads a text behind its first quote. -/
def readQuoted (q : Quote) (s : List Char) : Option (List Char × List Char) :=
  match s with
  | a :: b :: rest =>
    if a = q.mark ∧ b = q.mark then readBlock q 0 (blockStart rest) else readLine q 0 s
  | _ => readLine q 0 s

/-! ## Writers -/

/-- The longest run of a character. -/
def longestRun (x : Char) : (run longest : Nat) → List Char → Nat
  | _, longest, [] => longest
  | run, longest, c :: rest =>
    if c = x then longestRun x (run + 1) (max longest (run + 1)) rest else longestRun x 0 longest rest

/-- Whether a character can only be written by an escape. -/
def needsEscape (c : Char) : Bool := !isPlain c && c ≠ '\n'

/-- The kind of quotes that a text is written with, and whether as a block: what comes first of double
quotes on a line, single quotes on a line, double quotes around a block, single quotes around a block, as
long as the text needs no escape there, and otherwise double quotes with escapes. -/
def style (s : List Char) : Quote × Bool :=
  let escapes := s.any needsEscape
  let lines := s.contains '\n'
  let slash := s.contains '\\'
  let doubles := longestRun '"' 0 0 s
  let singles := longestRun '\'' 0 0 s
  if !escapes && !slash && doubles = 0 && !lines then (.double, false)
  else if !escapes && singles = 0 && !lines then (.single, false)
  else if !escapes && !slash && doubles ≤ 2 then (.double, true)
  else if !escapes && singles ≤ 2 then (.single, true)
  else (.double, lines)

/-- A hexadecimal digit in upper case. -/
def upperDigit (n : Nat) : Char := if n < 10 then Char.ofNat (48 + n) else Char.ofNat (55 + n)

/-- How a character other than the quote is written between double quotes. -/
def escaped (block : Bool) (c : Char) : List Char :=
  if c = '\x08' then ['\\', 'b']
  else if c = '\t' then ['\\', 't']
  else if c = '\n' then if block then [c] else ['\\', 'n']
  else if c = '\x0c' then ['\\', 'f']
  else if c = '\r' then ['\\', 'r']
  else if c = '\\' then ['\\', '\\']
  else if isPlain c then [c]
  else ['\\', 'u', '0', '0', upperDigit (c.toNat / 16), upperDigit (c.toNat % 16)]

/-- The body of a text between double quotes; `run` quotes have just been written.  Two in a row do no harm
in a block, and every further one is escaped. -/
def writeEscaped (block : Bool) : (run : Nat) → List Char → List Char
  | _, [] => []
  | run, c :: rest =>
    if c = '"' then
      if block ∧ run < 2 then '"' :: writeEscaped block (run + 1) rest
      else '\\' :: '"' :: writeEscaped block 0 rest
    else escaped block c ++ writeEscaped block 0 rest

/-- The quotes around a text. -/
def delimiter (q : Quote) (block : Bool) : List Char := List.replicate (if block then 3 else 1) q.mark

/-- What follows the first quote of a text in a style.  A block with lines starts on a line of its own. -/
def quotedTail (q : Quote) (block : Bool) (s : List Char) : List Char :=
  let start := if block && s.contains '\n' then ['\n'] else []
  let body := match q with
    | .double => writeEscaped block 0 s
    | .single => s
  (delimiter q block).tail ++ start ++ body ++ delimiter q block

/-- A text between the quotes of its style. -/
def writeQuoted (s : List Char) : List Char :=
  let (q, block) := style s
  q.mark :: quotedTail q block s

end Toml
end VoucherGateway
