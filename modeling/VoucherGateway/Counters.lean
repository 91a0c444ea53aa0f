import VoucherGateway.Action
import VoucherGateway.Error
import VoucherGateway.MessagePack.Decoder

/-!
# Counters — what a gateway has done so far

Nine counters of 64 bits, which are added to modulo 2^64.  They may be kept in a file: it is written when a
session is accepted, when a query is settled and on demand, and it is read when the counters are opened.  A
file that cannot be read counts as absent, and one that cannot be written is left alone.

For each accepted session and each settled query the new total is computed once more, to be reported, by a
sum that must fit.  Where it does not, recording panics: the counters have been added to by then, the file
has not been written.
-/

namespace VoucherGateway

/-- The nine counters. -/
structure Counters where
  sessionsAccepted : UInt64 := 0
  sessionsRejected : UInt64 := 0
  sessionsClosed : UInt64 := 0
  queriesLocked : UInt64 := 0
  queriesRejected : UInt64 := 0
  queriesSettled : UInt64 := 0
  queriesAborted : UInt64 := 0
  queriesForceAborted : UInt64 := 0
  atomsSettled : UInt64 := 0
  deriving DecidableEq, Repr

namespace Counters

/-- The names of the counters, in their order. -/
def names : List String :=
  ["sessions_accepted", "sessions_rejected", "sessions_closed", "queries_locked", "queries_rejected",
    "queries_settled", "queries_aborted", "queries_force_aborted", "atoms_settled"]

/-- The counters in their order. -/
def toList (c : Counters) : List UInt64 :=
  [c.sessionsAccepted, c.sessionsRejected, c.sessionsClosed, c.queriesLocked, c.queriesRejected,
    c.queriesSettled, c.queriesAborted, c.queriesForceAborted, c.atomsSettled]

/-- Nine counters in their order. -/
def ofList? : List UInt64 → Option Counters
  | [a, b, c, d, e, f, g, h, i] => some ⟨a, b, c, d, e, f, g, h, i⟩
  | _ => none

/-- The counters as the bytes of a file. -/
def encode (c : Counters) : Bytes :=
  MessagePack.encodeArrayHeader names.length ++ c.toList.flatMap fun n => MessagePack.encodeNat n.toNat

/-- The counters in the bytes of a file. -/
def decode? (bytes : Bytes) : Option Counters := do
  let fields ← (← MessagePack.decode bytes).fields? names
  ofList? (← fields.mapM MessagePack.Value.word?)

theorem ofList?_toList (c : Counters) : ofList? c.toList = some c := rfl

end Counters

/-- What happens to a gateway, as far as it is counted. -/
inductive Event
  | sessionAccepted
  | sessionRejected
  | sessionClosed
  | queryLocked
  | queryRejected
  | querySettled (atoms : Atoms)
  | queryAborted (forced : Bool)
  deriving DecidableEq, Repr

/-- The counters after an event. -/
def Counters.count (c : Counters) : Event → Counters
  | .sessionAccepted => { c with sessionsAccepted := c.sessionsAccepted + 1 }
  | .sessionRejected => { c with sessionsRejected := c.sessionsRejected + 1 }
  | .sessionClosed => { c with sessionsClosed := c.sessionsClosed + 1 }
  | .queryLocked => { c with queriesLocked := c.queriesLocked + 1 }
  | .queryRejected => { c with queriesRejected := c.queriesRejected + 1 }
  | .querySettled atoms =>
    { c with queriesSettled := c.queriesSettled + 1, atomsSettled := c.atomsSettled + atoms }
  | .queryAborted false => { c with queriesAborted := c.queriesAborted + 1 }
  | .queryAborted true => { c with queriesForceAborted := c.queriesForceAborted + 1 }

/-- The events after which the file is written. -/
def Event.isKept : Event → Bool
  | .sessionAccepted | .querySettled _ => true
  | _ => false

/-- Whether the total that is reported of an event does not fit. -/
def Counters.runsOver (c : Counters) : Event → Bool
  | .sessionAccepted => (Atoms.add? c.sessionsAccepted 1).isNone
  | .querySettled atoms => (Atoms.add? c.atomsSettled atoms).isNone
  -- of the other events no total is reported
  | _ => false

theorem Counters.runsOver_querySettled (c : Counters) (atoms : Atoms) :
    c.runsOver (.querySettled atoms) = true ↔ Atoms.top.toNat < c.atomsSettled.toNat + atoms.toNat := by
  unfold runsOver
  rw [Option.isNone_iff_eq_none, Atoms.add?_eq_none_iff, Atoms.toNat_top]

/-- What the caller gets who is to be given an answer once an event is recorded. -/
def Counters.told {α : Type} (c : Counters) (e : Event) (answer : α) : Completion α :=
  if c.runsOver e then .panicked .overflow else .returned answer

/-- The place of the counters' file. -/
structure CounterFile where
  /-- The bytes of the file, if there is one. -/
  content : Option Bytes := none
  readable : Bool := true
  writable : Bool := true
  deriving DecidableEq, Repr

namespace CounterFile

/-- The bytes of the file, if there is one and it can be read. -/
def bytes? (f : CounterFile) : Option Bytes := if f.readable then f.content else none

/-- The file after an attempt to write it. -/
def write (f : CounterFile) (bytes : Bytes) : CounterFile :=
  if f.writable then { f with content := some bytes } else f

end CounterFile

/-- Counters, and the file that may keep them. -/
structure Metrics where
  counters : Counters := {}
  /-- Whether the counters are kept. -/
  persistent : Bool := false
  file : CounterFile := {}
  deriving DecidableEq, Repr

namespace Metrics

/-- Writes the file. -/
def flush (m : Metrics) : Metrics :=
  if m.persistent then { m with file := m.file.write m.counters.encode } else m

/-- Counts an event, and writes the file if the event calls for it. -/
def record (e : Event) : Action Metrics Panic Unit := do
  let m ← get
  -- the counters are added to before the total is computed
  set { m with counters := m.counters.count e }
  if m.counters.runsOver e then throw .overflow
  -- other events reach the file with the next one that is kept
  if e.isKept then Action.update flush

/-- Counters and their file once an event is recorded, whether or not recording panics. -/
def count (m : Metrics) (e : Event) : Metrics := ((record e).run m).2

/-- Opens the counters anew: from the file if they are kept and it can be decoded, else from zero. -/
def reopen (m : Metrics) : Metrics :=
  { m with counters := if m.persistent then (m.file.bytes?.bind Counters.decode?).getD {} else {} }

/-! ## Memory and the file -/

theorem counters_flush (m : Metrics) : m.flush.counters = m.counters := by
  unfold flush
  split <;> rfl

theorem persistent_flush (m : Metrics) : m.flush.persistent = m.persistent := by
  unfold flush
  split <;> rfl

/-- The counters change, then recording panics or the file is written. -/
theorem run_record (m : Metrics) (e : Event) :
    (record e).run m =
      let counted := { m with counters := m.counters.count e }
      if m.counters.runsOver e then (.error .overflow, counted)
      else (.ok (), if e.isKept then counted.flush else counted) := by
  change Action.run (do
    if m.counters.runsOver e then throw Panic.overflow
    if e.isKept then Action.update flush) { m with counters := m.counters.count e } = _
  cases m.counters.runsOver e with
  | true => rfl
  | false => cases e.isKept <;> rfl

theorem count_eq (m : Metrics) (e : Event) :
    m.count e =
      let counted := { m with counters := m.counters.count e }
      if m.counters.runsOver e || !e.isKept then counted else counted.flush := by
  unfold count
  rw [run_record]
  cases m.counters.runsOver e <;> cases e.isKept <;> rfl

theorem counters_count (m : Metrics) (e : Event) : (m.count e).counters = m.counters.count e := by
  rw [count_eq]
  dsimp only
  split
  · rfl
  · exact counters_flush _

theorem persistent_count (m : Metrics) (e : Event) : (m.count e).persistent = m.persistent := by
  rw [count_eq]
  dsimp only
  split
  · rfl
  · exact persistent_flush _

end Metrics
end VoucherGateway
