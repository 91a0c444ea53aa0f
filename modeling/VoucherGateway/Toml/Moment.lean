import VoucherGateway.Text.Decimal

/-!
# Toml moment — words that are dates and times

A date, a time of day, or both with an optional distance from universal time.
-/

namespace VoucherGateway
namespace Toml

/-- The days of a month. -/
def daysIn (year month : Nat) : Nat :=
  if month = 2 then
    if year % 4 = 0 ∧ (year % 100 ≠ 0 ∨ year % 400 = 0) then 29 else 28
  else if month = 4 ∨ month = 6 ∨ month = 9 ∨ month = 11 then 30
  else 31

/-- Whether digits write a number from `low` to `high`. -/
def isWithin (low high : Nat) (digits : List Char) : Bool :=
  match Text.readNat digits with
  | some n => low ≤ n && n ≤ high
  | none => false

/-- Whether a word is a date: a year of four digits, a month and a day of it. -/
def isDate : List Char → Bool
  | [y1, y2, y3, y4, '-', m1, m2, '-', d1, d2] =>
    match Text.readNat [y1, y2, y3, y4], Text.readNat [m1, m2] with
    | some year, some month =>
      1 ≤ month && month ≤ 12 && isWithin 1 (daysIn year month) [d1, d2]
    | _, _ => false
  | _ => false

/-- Whether a word is a distance from universal time. -/
def isOffset : List Char → Bool
  | ['Z'] | ['z'] => true
  | [sign, h1, h2, ':', m1, m2] =>
    (sign = '+' || sign = '-') && isWithin 0 23 [h1, h2] && isWithin 0 59 [m1, m2]
  | _ => false

/-- The text behind the fraction of a second. -/
def dropFraction : List Char → List Char
  | '.' :: d :: rest => if d.isDigit then rest.dropWhile Char.isDigit else '.' :: d :: rest
  | s => s

/-- The text behind a time of day in front. -/
def dropTime? : List Char → Option (List Char)
  | h1 :: h2 :: ':' :: m1 :: m2 :: ':' :: s1 :: s2 :: rest =>
    if isWithin 0 23 [h1, h2] && isWithin 0 59 [m1, m2] && isWithin 0 60 [s1, s2] then
      some (dropFraction rest)
    else none
  | _ => none

/-- Whether a word is a time of day. -/
def isTime (word : List Char) : Bool := dropTime? word = some []

/-- Whether a word is a time of day, possibly with its distance from universal time. -/
def isZonedTime (word : List Char) : Bool :=
  match dropTime? word with
  | none => false
  | some rest => rest.isEmpty || isOffset rest

/-- Whether a word is a date, a time of day, or both. -/
def isMoment (word : List Char) : Bool :=
  isDate word || isTime word ||
    match word.drop 10 with
    | mark :: time => (mark = 'T' || mark = 't') && isDate (word.take 10) && isZonedTime time
    | [] => false

end Toml
end VoucherGateway
