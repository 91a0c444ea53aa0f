import VoucherGateway.CommandLine.Arguments

/-!
# Commands — what an operator can ask for

Making a signing key, signing a voucher, looking into a voucher, and writing or checking a settings file.
-/

namespace VoucherGateway
namespace CommandLine

/-- A command. -/
inductive Command
  | keygen
  | sign (key vendor : String) (nonce : UInt64) (atoms : UInt64)
  | inspect (voucher : String)
  | writeDefaults (output : Option String)
  | checkSettings (path : String)
  deriving DecidableEq, Repr

/-- A command and the settings file that holds for it. -/
structure Invocation where
  settings : Option String := none
  command : Command
  deriving DecidableEq, Repr

/-- The names of commands. -/
inductive Topic
  | keygen
  | sign
  | inspect
  | config
  | help
  deriving DecidableEq, Repr

namespace Topic

/-- The name of a command on the command line. -/
def name : Topic → String
  | .keygen => "keygen"
  | .sign => "sign"
  | .inspect => "inspect"
  | .config => "config"
  | .help => "help"

/-- The commands, in the order of the help text. -/
def all : List Topic := [.keygen, .sign, .inspect, .config, .help]

/-- The command of this name. -/
def ofName? (name : String) : Option Topic := all.find? (·.name = name)

end Topic

/-- What a command line asks for. -/
inductive Request
  | run (i : Invocation)
  | help (topic : Option Topic)
  | version
  | misuse
  deriving DecidableEq, Repr

/-- The option for the settings file, known at every level. -/
def settingsFile : Setting := { name := "config", letter := some 'c', kind := .path }

/-- What may be given in front of the command. -/
def rootGrammar : Grammar where
  settings := [{ name := "log-level" }, settingsFile]
  commands := true
  version := true

/-- What may be given behind the name of a command. -/
def grammarOf : Topic → Grammar
  | .keygen | .help => { settings := [settingsFile] }
  | .sign =>
    { settings := [{ name := "key" }, { name := "vendor" }, { name := "nonce", kind := .number },
        { name := "atoms", kind := .number }, settingsFile] }
  | .inspect => { settings := [settingsFile], operands := 1 }
  | .config =>
    { settings := [{ name := "output", kind := .path }, { name := "check", kind := .path }, settingsFile] }

/-- The command with what was given for it; `key` is the signing key of the surroundings. -/
def commandOf (topic : Topic) (key : Option String) (g : Given) : Option Command :=
  match topic with
  | .keygen => some .keygen
  | .sign => do
    -- the surroundings serve where the command line is silent
    let key ← (g.value? "key").or key
    let vendor ← g.value? "vendor"
    let nonce ← (g.value? "nonce").bind Text.readWord
    let atoms ← (g.value? "atoms").bind Text.readWord
    return .sign key vendor nonce atoms
  | .inspect => g.operands.head?.map .inspect
  | .config =>
    match g.value? "output", g.value? "check" with
    | some _, some _ => none
    | output, none => some (.writeDefaults output)
    | none, some path => some (.checkSettings path)
  | .help => none

/-- The command that a word behind `help` asks about. -/
def helpOn : List String → Request
  | [] => .help none
  | [name] =>
    match Topic.ofName? name with
    | some topic => .help (some topic)
    | none => .misuse
  | _ => .misuse

/-- What a command line asks for.  A settings file named behind the command wins over one in front. -/
def Request.ofArguments (key : Option String) (arguments : List String) : Request :=
  match rootGrammar.read {} arguments with
  | .help => .help none
  | .version => .version
  | .misuse | .given _ => .misuse
  | .command root name rest =>
    match Topic.ofName? name with
    | none => .misuse
    | some .help => helpOn rest
    | some topic =>
      match (grammarOf topic).read {} rest with
      | .help => .help (some topic)
      | .version | .misuse | .command .. => .misuse
      | .given g =>
        match commandOf topic key g with
        | none => .misuse
        | some command => .run ⟨(g.value? "config").or (root.value? "config"), command⟩

end CommandLine
end VoucherGateway
