import VoucherGateway.Text.Decimal

/-!
# Arguments — sorting out the words of a command line

An option has a long name, may have a letter, and takes one value, which stands behind an equals sign, right
behind the letter, or in the next word.  Two hyphens end the options.  Every option may be given once, and
asking for help or for the version wins over everything behind it.
-/

namespace VoucherGateway
namespace CommandLine

/-- What the value of an option has to be: any text, the name of a file, or a 64-bit number. -/
inductive Kind
  | text
  | path
  | number
  deriving DecidableEq, Repr

/-- Whether a text can be a value of a kind. -/
def Kind.allows : Kind → String → Bool
  | .text, _ => true
  | .path, s => s ≠ ""
  | .number, s => (Text.readWord s).isSome

/-- An option. -/
structure Setting where
  name : String
  letter : Option Char := none
  kind : Kind := .text
  deriving DecidableEq, Repr

/-- What may be given at one level of a command line. -/
structure Grammar where
  settings : List Setting
  /-- Words that belong to no option. -/
  operands : Nat := 0
  /-- Whether the first such word names a command, which takes over. -/
  commands : Bool := false
  /-- Whether the version may be asked for. -/
  version : Bool := false

/-- The values given for options, and the words that belong to none, in their order. -/
structure Given where
  values : List (String × String) := []
  operands : List String := []

/-- What a level of a command line amounts to. -/
inductive Reading
  | given (g : Given)
  | command (g : Given) (name : String) (rest : List String)
  | help
  | version
  | misuse

/-- The shapes of words.  A single hyphen is an ordinary word. -/
inductive Word
  | plain (text : String)
  | long (name : String) (value : Option String)
  | short (letter : Char) (rest : List Char)
  | finish
  deriving DecidableEq, Repr

/-- The name of a long option, and its value behind an equals sign. -/
def splitName (cs : List Char) : String × Option String :=
  let name := cs.takeWhile (· ≠ '=')
  match cs.drop name.length with
  | '=' :: value => (String.ofList name, some (String.ofList value))
  | _ => (String.ofList name, none)

/-- The shape of a word. -/
def Word.ofText (text : String) : Word :=
  match text.toList with
  | ['-', '-'] => .finish
  | '-' :: '-' :: cs => let (name, value) := splitName cs; .long name value
  | '-' :: letter :: cs => .short letter cs
  | _ => .plain text

/-- The value behind the letter of an option, if one is there. -/
def attached : List Char → Option String
  | [] => none
  | '=' :: cs => some (String.ofList cs)
  | cs => some (String.ofList cs)

namespace Given

/-- Adds the value of an option, unless it has one or the value is of another kind. -/
def assign (g : Given) (s : Setting) (value : String) : Option Given :=
  if (g.values.lookup s.name).isSome ∨ s.kind.allows value = false then none
  else some { g with values := g.values ++ [(s.name, value)] }

/-- The value of an option. -/
def value? (g : Given) (name : String) : Option String := g.values.lookup name

end Given

namespace Grammar

variable (grammar : Grammar)

/-- Adds operands, unless they are too many. -/
def addOperands (g : Given) (words : List String) : Option Given :=
  if grammar.operands < g.operands.length + words.length then none
  else some { g with operands := g.operands ++ words }

/-- Reads a level of a command line behind what was given so far. -/
def read (g : Given) : List String → Reading
  | [] => .given g
  | word :: rest =>
    -- the value of an option in the next word
    let next (s : Setting) : Reading :=
      match rest with
      | [] => .misuse
      | value :: rest =>
        -- a word that looks like an option is none's value, unless it is a single hyphen
        match Word.ofText value with
        | .plain value => (g.assign s value).elim .misuse fun g => read g rest
        | _ => .misuse
    let option (s : Option Setting) (value : Option String) : Reading :=
      match s, value with
      | none, _ => .misuse
      | some s, some value => (g.assign s value).elim .misuse fun g => read g rest
      | some s, none => next s
    match Word.ofText word with
    | .finish => (grammar.addOperands g rest).elim .misuse .given
    | .plain text =>
      if grammar.commands then .command g text rest
      else (grammar.addOperands g [text]).elim .misuse fun g => read g rest
    | .long name value =>
      if name = "help" ∧ value = none then .help
      else if name = "version" ∧ value = none ∧ grammar.version then .version
      else option (grammar.settings.find? (·.name = name)) value
    | .short letter cs =>
      if letter = 'h' then .help
      else if letter = 'V' ∧ grammar.version then .version
      else option (grammar.settings.find? (·.letter = some letter)) (attached cs)

end Grammar
end CommandLine
end VoucherGateway
