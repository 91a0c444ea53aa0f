import VoucherGateway.Toml.Value

/-!
# Toml tree — tables that grow

A file mentions a table in several places: in its heading, as a part of the path in a heading further on,
and as a part of the dotted key of an entry.  A tree remembers how each table came about, because that
decides what may still be added to it.
-/

namespace VoucherGateway
namespace Toml

/-- How a table came about: by its own heading, as a part of another heading, or by a dotted key. -/
inductive Origin
  | heading
  | path
  | key
  deriving DecidableEq, Repr

/-- A table entry that may still grow. -/
inductive Node
  | value (v : Value)
  | table (origin : Origin) (entries : List (String × Node))
  /-- Tables under one heading, each a node of its own. -/
  | series (elements : List Node)

/-- The entries of a table, in the order of their first mention. -/
abbrev Entries := List (String × Node)

namespace Entries

/-- Changes the node under a key, or adds one at the end. -/
def alter (key : String) (f : Option Node → Option Node) : Entries → Option Entries
  | [] => (f none).map fun n => [(key, n)]
  | (k, n) :: rest =>
    if k = key then (f (some n)).map fun n => (k, n) :: rest
    else (alter key f rest).map ((k, n) :: ·)

/-- The entries other than one. -/
def erase (key : String) (es : Entries) : Entries := es.filter fun e => e.1 ≠ key

/-- Changes the table at a path, which is created where it is missing.  Parts of a dotted key may not pass
through a table that has its own heading; the last table of a series stands for the series. -/
def descend (dotted : Bool) : (path : List String) → (origin : Origin) →
    (Origin → Entries → Option Entries) → Entries → Option Entries
  | [], origin, f, es => f origin es
  | key :: path, _, f, es =>
    let created : Origin := if dotted then .key else .path
    alter key (fun
      | none => (descend dotted path created f []).map (.table created)
      | some (.value _) => none
      | some (.table origin inner) =>
        -- a heading has said all of its table, so no dotted key may add to it
        if dotted && origin = .heading then none
        else (descend dotted path origin f inner).map (.table origin)
      | some (.series elements) =>
        -- what is said of a series is said of its newest table
        match elements.getLast? with
        | some (.table origin inner) =>
          (descend dotted path origin f inner).map fun inner =>
            .series (elements.dropLast ++ [.table origin inner])
        | _ => none) es

/-- Adds an entry under a key that is not used yet. -/
def add (key : String) (v : Value) (es : Entries) : Option Entries :=
  if (es.lookup key).isSome then none else some (es ++ [(key, .value v)])

/-- Adds the entry with a dotted key: every table on its way but the one it starts from has to have come
about by dotted keys, or be new. -/
def assign (key : List String) (v : Value) (es : Entries) : Option Entries :=
  match key.getLast? with
  | none => none
  | some name =>
    let path := key.dropLast
    descend true path .heading (fun origin inner =>
      if path.isEmpty || origin = .key then add name v inner else none) es

/-- Adds entries in a row. -/
def assignAll (lines : List (List String × Value)) (es : Entries) : Option Entries :=
  lines.foldlM (fun es line => assign line.1 line.2 es) es

/-- Adds a table with its own heading.  The heading may be mentioned as a part of other headings before, and
then the table keeps what it has. -/
def addTable (path : List String) (lines : List (List String × Value)) (es : Entries) : Option Entries :=
  match path.getLast? with
  | none => none
  | some name =>
    descend false path.dropLast .heading (fun _ inner =>
      let body := match inner.lookup name with
        | none => assignAll lines []
        -- only mentioned so far: its own heading may still come, once
        | some (.table .path sofar) => assignAll lines sofar
        | some _ => none
      body.map fun body => inner.erase name ++ [(name, .table .heading body)]) es

/-- Adds a table to a series. -/
def addElement (path : List String) (lines : List (List String × Value)) (es : Entries) : Option Entries :=
  match path.getLast? with
  | none => none
  | some name =>
    descend false path.dropLast .heading (fun _ inner =>
      (assignAll lines []).bind fun body =>
        alter name (fun
          | none => some (.series [.table .heading body])
          | some (.series elements) => some (.series (elements ++ [.table .heading body]))
          | some _ => none) inner) es

end Entries

/-! ## The finished tree -/

mutual

/-- The value of a node. -/
def Node.finish : Node → Value
  | .value v => v
  | .table _ entries => .table (finishEntries entries)
  | .series elements => .array (finishAll elements)

/-- The values under the keys of a table. -/
def finishEntries : List (String × Node) → List (String × Value)
  | [] => []
  | (key, node) :: rest => (key, node.finish) :: finishEntries rest

/-- The values of a series. -/
def finishAll : List Node → List Value
  | [] => []
  | node :: rest => node.finish :: finishAll rest

end

/-- The table written inside a value by its entries in a row. -/
def inlineTable (lines : List (List String × Value)) : Option Value :=
  (Entries.assignAll lines []).map fun es => .table (finishEntries es)

end Toml
end VoucherGateway
