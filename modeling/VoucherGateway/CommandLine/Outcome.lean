import VoucherGateway.CommandLine.Command
import VoucherGateway.Config.File
import VoucherGateway.Voucher.Wire

/-!
# Outcome — what a command comes to

A command ends with an exit status, with lines for the operator, and in one case with a file to be written.
Misuse ends with status 2 and failure with status 1, and neither prints an answer.
-/

namespace VoucherGateway
namespace CommandLine

/-- What a command comes to. -/
structure Outcome where
  status : UInt32 := 0
  output : String := ""
  /-- What goes wrong, for the operator. -/
  complaint : String := ""
  /-- A file to be written, by its name. -/
  write : Option (String × String) := none
  deriving DecidableEq, Repr

namespace Outcome

/-- A failure. -/
def failure (why : String) : Outcome := { status := 1, complaint := why ++ "\n" }

/-- An answer, or the failure to find one. -/
def ofExcept : Except String Outcome → Outcome
  | .ok outcome => outcome
  | .error why => failure why

end Outcome

/-! ## Texts -/

/-- The version. -/
def versionText : String := "micropay-voucher 0.1.0\n"

/-- The lines of a table with two columns. -/
def columns (rows : List (String × String)) : String :=
  let width := (rows.map fun r => r.1.length).foldl max 0
  String.join (rows.map fun r =>
    "  " ++ r.1 ++ String.ofList (List.replicate (width - r.1.length + 2) ' ') ++ r.2 ++ "\n")

/-- What a command is for. -/
def Topic.purpose : Topic → String
  | .keygen => "Generate a signing key and print it with its client id"
  | .sign => "Sign a voucher and print it as hex"
  | .inspect => "Decode a hex voucher, verify it, and print its fields as JSON"
  | .config => "Write the default gateway configuration, or validate an existing one"
  | .help => "Print this message or the help of the given subcommand(s)"

/-- What follows the name of a command. -/
def Topic.usage : Topic → String
  | .keygen => "[OPTIONS]"
  | .sign => "[OPTIONS] --key <KEY> --vendor <VENDOR> --nonce <NONCE> --atoms <ATOMS>"
  | .inspect => "[OPTIONS] <VOUCHER>"
  | .config => "[OPTIONS]"
  | .help => "[COMMAND]"

/-- The options of a command in its help text. -/
def Topic.options : Topic → List (String × String)
  | .keygen => []
  | .sign =>
    [("    --key <KEY>", "Hex-encoded 32-byte signing key [env: MICROPAY_SIGNING_KEY]"),
      ("    --vendor <VENDOR>", "Hex-encoded 32-byte vendor id"),
      ("    --nonce <NONCE>", "Chain position of the voucher"),
      ("    --atoms <ATOMS>", "Value in atoms")]
  | .inspect => []
  | .config =>
    [("    --output <OUTPUT>", "Output file (defaults to stdout if omitted)"),
      ("    --check <CHECK>", "Validate this file instead of writing defaults")]
  | .help => []

/-- The help text of a command, or of the program. -/
def helpText : Option Topic → String
  | none =>
    "Credit accounting and session lifecycle engine for voucher-paid metered services\n\n" ++
    "Usage: micropay-voucher [OPTIONS] <COMMAND>\n\nCommands:\n" ++
    columns (Topic.all.map fun t => (t.name, t.purpose)) ++ "\nOptions:\n" ++
    columns [("    --log-level <LOG_LEVEL>",
        "Log level. Falls back to `log_level` of `--config`, then `warn`"),
      ("-c, --config <CONFIG>", "Gateway configuration file"), ("-h, --help", "Print help"),
      ("-V, --version", "Print version")]
  | some topic =>
    topic.purpose ++ "\n\nUsage: micropay-voucher " ++ topic.name ++ " " ++ topic.usage ++ "\n\nOptions:\n" ++
    columns (topic.options ++
      [("-c, --config <CONFIG>", "Gateway configuration file"), ("-h, --help", "Print help")])

/-! ## Commands -/

/-- The length of a signing key. -/
def keyLength : Nat := 32

/-- Reads a signing key, blanks around it and marks of hexadecimal in front allowed. -/
def readKey (text : String) : Except String Signer :=
  match Hex.decode (Identifier.dropMarks (Text.trim text.toList)) with
  | .error fault => .error fault.message
  | .ok secret =>
    if secret.length = keyLength then .ok ⟨secret⟩
    else .error s!"signing key must be {keyLength} bytes, got {secret.length}"

/-- A signing key and the client that it belongs to, for the operator. -/
def describeKey (s : Signer) : String :=
  "signing_key: " ++ Hex.encode s.secret ++ "\nclient_id:   " ++ s.client.text ++ "\n"

/-- A voucher as a JSON object with its names in order. -/
def describeVoucher (v : SignedVoucher) : String :=
  let line (name value : String) := "  \"" ++ name ++ "\": " ++ value
  let quoted (s : String) := "\"" ++ s ++ "\""
  "\x7b\n" ++ String.intercalate ",\n"
    [line "atoms" (toString v.atoms), line "client" (quoted v.client.text), line "nonce" (toString v.nonce),
      line "signature_valid" (if v.isAuthentic then "true" else "false"),
      line "vendor" (quoted v.vendor.text)] ++ "\n\x7d\n"

/-- A policy in the report on a settings file. -/
def policyLabel : ExhaustionPolicy → String
  | .reject => "Reject"
  | .grace => "Grace"

/-- The report on a settings file that is in order. -/
def describeSettings (path : String) (c : GatewayConfig) : String :=
  path ++ ": ok (expand_risk_factor=" ++ toString c.credit.expandRiskFactor ++ ", exhaustion_policy=" ++
    policyLabel c.credit.exhaustionPolicy ++ ", oracle ttl=" ++ toString c.oracle.ttlMs ++ "ms)\n"

/-- What a command does; `files` holds the contents of files by name, and `fresh` is a secret that nobody
has used. -/
def Command.perform (files : String → Option Bytes) (fresh : Bytes) : Command → Except String Outcome
  | .keygen => .ok { output := describeKey ⟨fresh⟩ }
  | .sign key vendor nonce atoms => do
    let signer ← readKey key
    let vendor ← (Identifier.parse vendor).mapError Error.message
    return { output := SignedVoucher.toHex (signer.sign vendor nonce atoms) ++ "\n" }
  | .inspect voucher => do
    let v ← (SignedVoucher.ofHex voucher).mapError Error.message
    return { output := describeVoucher v }
  | .writeDefaults output => do
    let text ← (GatewayConfig.render {}).mapError Error.message
    match output with
    | none => return { output := text }
    | some path => return { write := some (path, text) }
  | .checkSettings path => do
    let c ← (GatewayConfig.load (files path)).mapError Error.message
    return { output := describeSettings path c }

/-- The files that an invocation reads. -/
def Invocation.inputs (i : Invocation) : List String :=
  i.settings.toList ++ match i.command with
    | .checkSettings path => [path]
    | _ => []

/-- Carries out an invocation.  Its settings file is read before anything else. -/
def Invocation.perform (files : String → Option Bytes) (fresh : Bytes) (i : Invocation) :
    Except String Outcome := do
  match i.settings with
  | none => pure ()
  | some path => let _ ← (GatewayConfig.load (files path)).mapError Error.message
  i.command.perform files fresh

/-- What a request comes to. -/
def Request.outcome (files : String → Option Bytes) (fresh : Bytes) : Request → Outcome
  | .run i => .ofExcept (i.perform files fresh)
  | .help topic => { output := helpText topic }
  | .version => { output := versionText }
  | .misuse => { status := 2, complaint := "error: invalid arguments\n\n" ++ helpText none }

/-- The files that a request reads. -/
def Request.inputs : Request → List String
  | .run i => i.inputs
  | _ => []

end CommandLine
end VoucherGateway
