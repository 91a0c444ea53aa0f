import VoucherGateway.Atoms
import VoucherGateway.QueryState

/-!
# Error — why an operation is refused

Errors name their causes; the wording is in `message`.  A *rejection* is the business outcome of checking a
voucher.  A *violation* means that accounting contradicts itself: it is fatal for the client concerned.
Everything that a store or the chain could not answer is infrastructure, and may be retried.  A *panic* is no
error: it ends a call that has done what it was asked before its caller has the answer.
-/

namespace VoucherGateway

/-- Who has to act on an error. -/
inductive ErrorClass
  | authentication
  | authorization
  | credit
  | infrastructure
  | invariant
  | request
  | service
  deriving DecidableEq, Repr

/-- Why a voucher is not accepted. -/
inductive Rejection
  | badSignature
  | zeroAtoms
  | wrongVendor
  | nonceGap (expected got : UInt64)
  | nonceReplay (latest got : UInt64)
  | alreadySpent (nonce : UInt64)
  | notSubscribed
  | insufficientCollateral (collateral required : Atoms)
  deriving DecidableEq, Repr

/-- The two running costs kept for each client. -/
inductive RunningCost
  | locked
  | unmarked
  deriving DecidableEq, Repr

/-- How accounting contradicts itself.  Parties, vouchers and queries appear by their texts. -/
inductive Violation
  | negativeLocked (client : String) (locked release : Atoms)
  | negativeUnmarked (client : String) (unmarked reduce : Atoms)
  | overflow (cost : RunningCost) (client : String) (current add : Atoms)
  | doubleSpend (voucher : String)
  | nonceSequence (client detail : String)
  | queryTransition (query : String) (source target : QueryState)
  deriving DecidableEq, Repr

/-- Why an operation is refused. -/
inductive Error
  | rejected (reason : Rejection)
  | insufficientCredit (requested available : Atoms)
  | chainUnavailable (detail : String)
  | storeUnavailable (detail : String)
  | violation (cause : Violation)
  | clientHalted (client : String)
  | unknownSession (session : String)
  | sessionClosed (session : String)
  | unknownQuery (query : String)
  | queryAborted (query : String)
  | querySettled (query : String)
  | configuration (detail : String)
  | file (detail : String)
  | serialization (detail : String)
  deriving DecidableEq, Repr

/-! ## Classes -/

/-- A rejection concerns the voucher itself or the standing of its client. -/
def Rejection.errorClass : Rejection → ErrorClass
  | .notSubscribed | .insufficientCollateral .. => .authorization
  | _ => .authentication

namespace Error

/-- Who has to act. -/
def errorClass : Error → ErrorClass
  | .rejected reason => reason.errorClass
  | .insufficientCredit .. => .credit
  | .chainUnavailable _ | .storeUnavailable _ => .infrastructure
  | .violation _ | .clientHalted _ => .invariant
  | .unknownSession _ | .sessionClosed _ | .unknownQuery _ | .queryAborted _ | .querySettled _ => .request
  | .configuration _ | .file _ | .serialization _ => .service

/-- Fatal errors stop the client until somebody resumes it. -/
def isFatal (e : Error) : Bool := e.errorClass = .invariant

/-- Business errors are answers to the client. -/
def isBusiness (e : Error) : Bool :=
  match e.errorClass with
  | .authentication | .authorization | .credit => true
  | _ => false

end Error

/-! ## Panics -/

/-- What a call panics with. -/
structure Panic where
  message : String
  deriving DecidableEq, Repr

/-- The panic of a sum that leaves the range of its type. -/
def Panic.overflow : Panic := ⟨"attempt to add with overflow"⟩

/-- How a call ends that has done what it was asked. -/
inductive Completion (α : Type)
  | returned (answer : α)
  | panicked (p : Panic)
  deriving DecidableEq, Repr

/-! ## Wording -/

/-- The wording of a rejection. -/
def Rejection.message : Rejection → String
  | .badSignature => "voucher signature invalid"
  | .zeroAtoms => "voucher has zero atoms"
  | .wrongVendor => "voucher is signed for a different vendor"
  | .nonceGap expected got => s!"voucher nonce {got} skips ahead, expected {expected}"
  | .nonceReplay latest got => s!"voucher nonce {got} was already used, latest accepted is {latest}"
  | .alreadySpent nonce => s!"voucher nonce {nonce} is already spent"
  | .notSubscribed => "client is not subscribed to this vendor"
  | .insufficientCollateral collateral required =>
    s!"client collateral {collateral} does not cover voucher of {required} atoms"

/-- The name of a running cost. -/
def RunningCost.text : RunningCost → String
  | .locked => "locked"
  | .unmarked => "unmarked"

/-- The wording of a violation. -/
def Violation.message : Violation → String
  | .negativeLocked client locked release =>
    s!"locked cost of {client} would go negative: locked={locked}, release={release}"
  | .negativeUnmarked client unmarked reduce =>
    s!"unmarked cost of {client} would go negative: unmarked={unmarked}, reduce={reduce}"
  | .overflow cost client current add =>
    cost.text ++ s!" cost of {client} would overflow: current={current}, add={add}"
  | .doubleSpend voucher => s!"voucher {voucher} marked spent twice"
  | .nonceSequence client detail => s!"nonce sequence corrupted for {client}: {detail}"
  | .queryTransition query source target =>
    s!"query {query} cannot move from " ++ source.text ++ " to " ++ target.text

/-- The wording of a chain that cannot be read. -/
def chainUnavailableMessage (detail : String) : String := s!"oracle unavailable: {detail}"

/-- The wording of an error. -/
def Error.message : Error → String
  | .rejected reason => "voucher rejected: " ++ reason.message
  | .insufficientCredit requested available =>
    s!"insufficient credit: requested {requested}, available {available}"
  | .chainUnavailable detail => "oracle error: " ++ chainUnavailableMessage detail
  | .storeUnavailable detail => s!"tracker unavailable: {detail}"
  | .violation cause => "invariant violation: " ++ cause.message
  | .clientHalted client => s!"client {client} is halted after an invariant violation"
  | .unknownSession session => s!"unknown session {session}"
  | .sessionClosed session => s!"session {session} is closed"
  | .unknownQuery query => s!"unknown query {query}"
  | .queryAborted query => s!"query {query} was aborted"
  | .querySettled query => s!"query {query} was already settled"
  | .configuration detail => s!"configuration error: {detail}"
  | .file detail => s!"I/O error: {detail}"
  | .serialization detail => s!"serialization error: {detail}"

theorem Error.isFatal_iff {e : Error} :
    e.isFatal = true ↔ (∃ v, e = .violation v) ∨ ∃ c, e = .clientHalted c := by
  cases e with
  | rejected reason => cases reason <;> simp [isFatal, errorClass, Rejection.errorClass]
  | _ => simp [isFatal, errorClass]

end VoucherGateway
