import VoucherGateway.Toml.Statement

/-!
# Toml document — settings files as a whole

Reading gives the entries of the file as one table.  Writing covers files that have scalars at the top and
in tables one level down.
-/

namespace VoucherGateway
namespace Toml

/-! ## Reading -/

/-- The heading of a part of a file. -/
inductive Heading
  | table (path : List String)
  | element (path : List String)

/-- A part of a file: the entries under a heading. -/
structure Part where
  heading : Heading
  lines : List (List String × Value)

/-- The entries above the first heading, and the parts. -/
def parts : List Statement → List (List String × Value) × List Part
  | [] => ([], [])
  | .blank :: rest => parts rest
  | .entry key v :: rest => let (lines, more) := parts rest; ((key, v) :: lines, more)
  | .table path :: rest => let (lines, more) := parts rest; ([], ⟨.table path, lines⟩ :: more)
  | .element path :: rest => let (lines, more) := parts rest; ([], ⟨.element path, lines⟩ :: more)

/-- Adds a part to what the file says so far. -/
def Part.addTo (es : Entries) (p : Part) : Option Entries :=
  match p.heading with
  | .table path => es.addTable path p.lines
  | .element path => es.addElement path p.lines

/-- The table that the lines of a file make. -/
def assemble (lines : List Statement) : Option Value := do
  let (top, more) := parts lines
  let es ← more.foldlM Part.addTo (← Entries.assignAll top [])
  return .table (finishEntries es)

/-- The text behind a byte order mark. -/
def dropMark : List Char → List Char
  | '\uFEFF' :: rest => rest
  | s => s

/-- The table that a file says. -/
def parse (text : String) : Option Value := (statements (dropMark text.toList)).bind assemble

/-! ## Writing -/

/-- A file with scalars at the top and in named tables. -/
structure Document where
  top : List (String × Scalar)
  tables : List (String × List (String × Scalar))

/-- Whether a scalar can be written: a whole number has to fit in 64 bits with a sign. -/
def Scalar.isWritable : Scalar → Bool
  | .integer n => isSignedWord n
  | _ => true

/-- Whether a file can be written. -/
def Document.isWritable (d : Document) : Bool :=
  let all (es : List (String × Scalar)) := es.all fun e => e.2.isWritable
  all d.top && d.tables.all fun t => all t.2

/-- A scalar as it is written. -/
def Scalar.write : Scalar → List Char
  | .text s => writeQuoted s.toList
  | .integer n => (toString n).toList
  | .real word => word.toList
  | .truth b => if b then "true".toList else "false".toList
  | .moment word => word.toList

/-- An entry on its line. -/
def writeLine (entry : String × Scalar) : List Char :=
  entry.1.toList ++ " = ".toList ++ entry.2.write ++ ['\n']

/-- A table, set off by an empty line. -/
def writeTable (table : String × List (String × Scalar)) : List Char :=
  "\n[".toList ++ table.1.toList ++ "]\n".toList ++ table.2.flatMap writeLine

/-- The text of a file. -/
def Document.write (d : Document) : String :=
  String.ofList (d.top.flatMap writeLine ++ d.tables.flatMap writeTable)

/-- What a file says. -/
def Document.value (d : Document) : Value :=
  let entries (es : List (String × Scalar)) := es.map fun e => (e.1, Value.scalar e.2)
  .table (entries d.top ++ d.tables.map fun t => (t.1, .table (entries t.2)))

end Toml
end VoucherGateway
