/-!
# Toml layout — blanks, line ends and comments

A line ends with a line feed, with a carriage return and a line feed, or where the text ends.  A comment
runs to the end of its line.
-/

namespace VoucherGateway
namespace Toml

/-- Characters that separate words on a line. -/
def isSpace (c : Char) : Bool := c = ' ' || c = '\t'

/-- Characters that stand for themselves in comments and between quotes: all but the control characters
other than the tab. -/
def isPlain (c : Char) : Bool := c = '\t' || (0x20 ≤ c.val && c.val ≠ 0x7F)

/-- The text behind the blanks in front. -/
def dropSpaces (s : List Char) : List Char := s.dropWhile isSpace

/-- The text behind the end of a line, if one stands in front. -/
def lineBreak? : List Char → Option (List Char)
  | '\n' :: rest => some rest
  | '\r' :: '\n' :: rest => some rest
  | _ => none

/-- The text behind a comment in front. -/
def dropComment : List Char → List Char
  | '#' :: rest => rest.dropWhile isPlain
  | s => s

/-- The text of the next line, where nothing but blanks and a comment is left on this one. -/
def endLine (s : List Char) : Option (List Char) :=
  match dropComment (dropSpaces s) with
  | [] => some []
  | rest => lineBreak? rest

/-- The text behind blanks, line ends and comments; `inside` tells that a comment has begun. -/
def dropGap (inside : Bool) : List Char → List Char
  | [] => []
  | c :: rest =>
    if inside && isPlain c then dropGap true rest
    else if c = '#' then dropGap true rest
    else if isSpace c || c = '\n' || (c = '\r' && rest.head? = some '\n') then dropGap false rest
    else c :: rest

/-- The text behind blanks and line ends. -/
def dropLines : List Char → List Char
  | [] => []
  | c :: rest =>
    if isSpace c || c = '\n' || (c = '\r' && rest.head? = some '\n') then dropLines rest
    else c :: rest

end Toml
end VoucherGateway
