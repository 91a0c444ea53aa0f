import VoucherGateway.MessagePack.Value

/-!
# MessagePack decoder — reading values from bytes

A value is read from the front of a string of bytes; what follows it is handed back.  Containers nest at
most `maxDepth` deep, and an extension counts as a container.  The second half reads sequences and records.
A sequence is an array, or binary data whose bytes are the items; a record is a sequence of the fields in
their order, or a map from field names (or field numbers) to fields.
-/

namespace VoucherGateway
namespace MessagePack

/-- Containers inside each other that a decoder follows, extensions among them. -/
def maxDepth : Nat := 1023

/-- What the first bytes of a value announce. -/
inductive Head
  | scalar (v : Value)
  | items (count : Nat)
  | pairs (count : Nat)

/-- The first `n` bytes and the rest, if there are as many. -/
def takeBytes (n : Nat) (input : Bytes) : Option (Bytes × Bytes) :=
  if input.length < n then none else some (input.splitAt n)

/-- A number in the first `width` bytes. -/
def takeNat (width : Nat) (input : Bytes) : Option (Nat × Bytes) :=
  (takeBytes width input).map fun r => (Bytes.ofBigEndian r.1, r.2)

/-- A signed number in the first `width` bytes. -/
def takeInt (width : Nat) (input : Bytes) : Option (Int × Bytes) :=
  (takeNat width input).map fun r =>
    (if 2 * r.1 < Bytes.capacity width then (r.1 : Int) else (r.1 : Int) - Bytes.capacity width, r.2)

/-- `n` bytes as a scalar. -/
def takeScalar (make : Bytes → Value) (n : Nat) (input : Bytes) : Option (Head × Bytes) :=
  (takeBytes n input).map fun r => (.scalar (make r.1), r.2)

/-- Bytes as a scalar, behind their number in `width` bytes. -/
def takeCounted (make : Bytes → Value) (width extra : Nat) (input : Bytes) : Option (Head × Bytes) :=
  (takeNat width input).bind fun r => takeScalar make (r.1 + extra) r.2

/-- Reads the head of a value. -/
def readHead : Bytes → Option (Head × Bytes)
  | [] => none
  | first :: rest =>
    let m := first.toNat
    -- short forms: the first byte holds the number or the length
    if m < 0x80 then some (.scalar (.unsigned m), rest)
    else if m < 0x90 then some (.pairs (m - 0x80), rest)
    else if m < 0xA0 then some (.items (m - 0x90), rest)
    else if m < 0xC0 then takeScalar .text (m - 0xA0) rest
    -- values that are all in the first byte
    else if m = 0xC0 then some (.scalar .nil, rest)
    else if m = 0xC1 then none
    else if m = 0xC2 then some (.scalar (.bool false), rest)
    else if m = 0xC3 then some (.scalar (.bool true), rest)
    -- lengths and numbers in one, two, four or eight bytes
    else if m < 0xC7 then takeCounted .binary (1 <<< (m - 0xC4)) 0 rest
    else if m < 0xCA then takeCounted (fun _ => .extension) (1 <<< (m - 0xC7)) 1 rest
    else if m < 0xCC then takeScalar (fun _ => .float) (1 <<< (m - 0xC8)) rest
    else if m < 0xD0 then (takeNat (1 <<< (m - 0xCC)) rest).map fun r => (.scalar (.unsigned r.1), r.2)
    else if m < 0xD4 then (takeInt (1 <<< (m - 0xD0)) rest).map fun r => (.scalar (.signed r.1), r.2)
    else if m < 0xD9 then takeScalar (fun _ => .extension) ((1 <<< (m - 0xD4)) + 1) rest
    else if m < 0xDC then takeCounted .text (1 <<< (m - 0xD9)) 0 rest
    else if m < 0xDE then (takeNat (1 <<< (m - 0xDB)) rest).map fun r => (.items r.1, r.2)
    else if m < 0xE0 then (takeNat (1 <<< (m - 0xDD)) rest).map fun r => (.pairs r.1, r.2)
    -- small negative numbers
    else some (.scalar (.signed ((m : Int) - 256)), rest)

/-- Reads `n` things in a row. -/
def readMany {α : Type} (read : Bytes → Option (α × Bytes)) :
    (n : Nat) → Bytes → Option (List α × Bytes)
  | 0, input => some ([], input)
  | n + 1, input =>
    match read input with
    | none => none
    | some (a, rest) =>
      match readMany read n rest with
      | none => none
      | some (as, rest) => some (a :: as, rest)

/-- Reads two things in a row. -/
def readPair {α : Type} (read : Bytes → Option (α × Bytes)) (input : Bytes) :
    Option ((α × α) × Bytes) :=
  match read input with
  | none => none
  | some (a, rest) =>
    match read rest with
    | none => none
    | some (b, rest) => some ((a, b), rest)

/-- Reads a value with at most `depth` containers and extensions inside each other. -/
def read : (depth : Nat) → Bytes → Option (Value × Bytes)
  | 0, input =>
    match readHead input with
    | some (.scalar .extension, _) => none
    | some (.scalar v, rest) => some (v, rest)
    | _ => none
  | depth + 1, input =>
    match readHead input with
    | none => none
    | some (.scalar v, rest) => some (v, rest)
    | some (.items n, rest) => (readMany (read depth) n rest).map fun r => (.array r.1, r.2)
    | some (.pairs n, rest) => (readMany (readPair (read depth)) n rest).map fun r => (.map r.1, r.2)

/-- The value at the front of a string of bytes. -/
def decode (input : Bytes) : Option Value := (read maxDepth input).map (·.1)

/-! ## Reading fields -/

namespace Value

/-- A number from zero, however it is written. -/
def nat? : Value → Option Nat
  | .unsigned n => some n
  | .signed i => if 0 ≤ i then some i.toNat else none
  | _ => none

/-- A 64-bit number. -/
def word? (v : Value) : Option UInt64 :=
  v.nat?.bind fun n => if n ≤ 0xFFFFFFFFFFFFFFFF then some (UInt64.ofNat n) else none

/-- A number below 256. -/
def byte? (v : Value) : Option UInt8 :=
  v.nat?.bind fun n => if n ≤ 0xFF then some (UInt8.ofNat n) else none

/-- A string of bytes of any length: an array of numbers, or binary data. -/
def bytes? : Value → Option Bytes
  | .array items => items.mapM byte?
  | .binary bytes => some bytes
  | _ => none

/-- The items of a sequence of `n`.  An array has to have as many; of binary data the first `n` bytes count. -/
def sequence? (n : Nat) : Value → Option (List Value)
  | .array items => if items.length = n then some items else none
  | .binary bytes =>
    if n ≤ bytes.length then some ((bytes.take n).map fun b => .unsigned b.toNat) else none
  | _ => none

/-- A string of `n` bytes. -/
def bytesOfLength? (n : Nat) (v : Value) : Option Bytes := (v.sequence? n).bind fun items => items.mapM byte?

/-- The number of the field that a key of a map stands for; as many as there are fields if none. -/
def fieldIndex? (names : List String) : Value → Option Nat
  | .unsigned n => some (min n names.length)
  | .text bytes | .binary bytes => some (names.findIdx fun name => Hex.textBytes name.toList = bytes)
  | _ => none

/-- Puts the pairs of a map in the order of the fields.  Every key must be able to name a field, no field
may come twice, and none may be absent. -/
def orderFields (names : List String) (pairs : List (Value × Value)) : Option (List Value) := do
  let keyed ← pairs.mapM fun p => (p.1.fieldIndex? names).map (·, p.2)
  (List.range names.length).mapM fun i =>
    match keyed.filter (·.1 = i) with
    | [field] => some field.2
    | _ => none

/-- The fields of a record. -/
def fields? (names : List String) : Value → Option (List Value)
  | .map pairs => orderFields names pairs
  | v => v.sequence? names.length

end Value
end MessagePack
end VoucherGateway
