import Mathlib.Data.List.Nodup
import VoucherGateway.Gate

/-!
# Shared gate — the gate step by step, with its locks as shared objects

`Gate` keeps the lock of a client in the client's row and lets everybody run as far as they can at once.
Behind it stand locks that are made on demand and shared: the table holds one reference to a client's lock,
and so does everybody who is at that lock or about to be.  To enter, an entrant looks whether the client is
halted, fetches the lock from the table, takes it or lines up, and looks again once the lock is theirs.
Anything may happen between two of these steps.  A lock leaves the table when nobody but the table refers to
it; it goes on existing for whoever still has it.
-/

namespace VoucherGateway

namespace Lock

variable {ε : Type} [DecidableEq ε]

/-- Everybody at the lock: who has it, then those in line. -/
def line (l : Lock ε) : List ε := l.holder.toList ++ l.queue

/-- Takes the lock if it is free, and lines up otherwise. -/
def join (l : Lock ε) (who : ε) : Lock ε :=
  match l.holder with
  | none => { l with holder := some who }
  | some _ => { l with queue := l.queue ++ [who] }

/-- Gives up the lock, which then goes to the first in line, or the place in line. -/
def part (l : Lock ε) (who : ε) : Lock ε :=
  if l.holder = some who then
    match l.queue with
    | [] => {}
    | next :: rest => { holder := some next, queue := rest }
  else { l with queue := l.queue.filter (· ≠ who) }

end Lock

/-- How far an entrant has come. -/
inductive Stage
  /-- Found the client not halted. -/
  | checked
  /-- Has a reference to the lock. -/
  | fetched (lock : Nat)
  /-- Has the lock or is in line for it. -/
  | lined (lock : Nat)
  /-- Has the lock and found the client not halted: holds the client. -/
  | inside (lock : Nat)
  deriving DecidableEq, Repr

/-- The lock that an entrant refers to. -/
def Stage.lock? : Stage → Option Nat
  | .checked => none
  | .fetched n | .lined n | .inside n => some n

/-- An entrant's call of the gate. -/
structure Visit (κ : Type) where
  client : κ
  stage : Stage
  deriving DecidableEq, Repr

/-- The gate of clients `κ` for entrants `ε`, with shared locks. -/
structure SharedGate (κ ε : Type) where
  /-- Halted clients and the reasons. -/
  halted : Table κ String := {}
  /-- The lock that each client has at present. -/
  table : Table κ Nat := {}
  /-- How many locks have been made. -/
  made : Nat := 0
  /-- Every lock that was ever made. -/
  locks : Nat → Lock ε := fun _ => {}
  /-- The entrants that are about. -/
  visits : Table ε (Visit κ) := {}

/-- A step at the gate. -/
inductive Motion (κ ε : Type)
  | arrive (who : ε) (client : κ)
  | fetch (who : ε)
  | join (who : ε)
  | proceed (who : ε)
  | leave (who : ε)
  | withdraw (who : ε)
  | halt (client : κ) (reason : String)
  | resume (client : κ)
  | prune
  deriving DecidableEq, Repr

/-- A step that an entrant takes by itself once it has arrived. -/
def Motion.isOwn {κ ε : Type} : Motion κ ε → Bool
  | .fetch _ | .join _ | .proceed _ => true
  | _ => false

/-- What is seen of a step. -/
inductive Signal (κ ε : Type)
  /-- Failed on arrival. -/
  | turnedAway (who : ε) (client : κ) (error : Error)
  /-- Has the lock or is in line for it. -/
  | joined (who : ε) (client : κ)
  | admitted (who : ε) (client : κ)
  /-- Failed when its turn came. -/
  | refused (who : ε) (client : κ) (error : Error)
  /-- Gave up its place in line. -/
  | withdrew (who : ε) (client : κ)
  | left (who : ε) (client : κ)
  | resumed (client : κ) (lifted : Bool)
  | pruned (count : Nat)
  deriving DecidableEq

namespace SharedGate

variable {κ ε : Type} [DecidableEq κ] [DecidableEq ε]

/-- Replaces a lock. -/
def setLock (g : SharedGate κ ε) (n : Nat) (l : Lock ε) : SharedGate κ ε :=
  { g with locks := fun k => if k = n then l else g.locks k }

/-- Puts an entrant at a stage. -/
def seat (g : SharedGate κ ε) (who : ε) (client : κ) (stage : Stage) : SharedGate κ ε :=
  { g with visits := g.visits.put who { client := client, stage := stage } }

/-- Ends a visit. -/
def forget (g : SharedGate κ ε) (who : ε) : SharedGate κ ε := { g with visits := g.visits.erase who }

/-- Ends a visit to a lock. -/
def dismiss (g : SharedGate κ ε) (who : ε) (n : Nat) : SharedGate κ ε :=
  (g.setLock n ((g.locks n).part who)).forget who

/-- Makes a lock for a client. -/
def make (g : SharedGate κ ε) (client : κ) : SharedGate κ ε :=
  { g with table := g.table.put client g.made, made := g.made + 1 }

/-- How many references there are to a lock, those of the table and those of the entrants. -/
def references (g : SharedGate κ ε) (n : Nat) : Nat :=
  (g.table.rows.map (·.2)).count n + g.visits.rows.countP fun r => r.2.stage.lock? = some n

/-- Drops the locks that only the table refers to. -/
def prune (g : SharedGate κ ε) : SharedGate κ ε :=
  { g with table := g.table.keep fun _ n => 1 < g.references n }

variable [ToString κ]

/-- Takes a step.  A step that is not open to the entrant does nothing. -/
def step (g : SharedGate κ ε) : Motion κ ε → Option (Signal κ ε) × SharedGate κ ε
  | .arrive who client =>
    if g.visits.has who then (none, g)
    else
      match g.halted.get? client with
      | some reason => (some (.turnedAway who client (haltedError (toString client) reason)), g)
      | none => (none, g.seat who client .checked)
  | .fetch who =>
    match g.visits.get? who with
    | some ⟨client, .checked⟩ =>
      match g.table.get? client with
      | some n => (none, g.seat who client (.fetched n))
      | none => (none, (g.make client).seat who client (.fetched g.made))
    | _ => (none, g)
  | .join who =>
    match g.visits.get? who with
    | some ⟨client, .fetched n⟩ =>
      (some (.joined who client), (g.setLock n ((g.locks n).join who)).seat who client (.lined n))
    | _ => (none, g)
  | .proceed who =>
    match g.visits.get? who with
    | some ⟨client, .lined n⟩ =>
      if (g.locks n).holder = some who then
        match g.halted.get? client with
        | some reason =>
          (some (.refused who client (haltedError (toString client) reason)), g.dismiss who n)
        | none => (some (.admitted who client), g.seat who client (.inside n))
      else (none, g)
    | _ => (none, g)
  | .leave who =>
    match g.visits.get? who with
    | some ⟨client, .inside n⟩ => (some (.left who client), g.dismiss who n)
    | _ => (none, g)
  | .withdraw who =>
    match g.visits.get? who with
    | some ⟨client, .lined n⟩ => (some (.withdrew who client), g.dismiss who n)
    | some ⟨_, .inside _⟩ => (none, g)
    | some _ => (none, g.forget who)
    | none => (none, g)
  | .halt client reason => (none, { g with halted := g.halted.put client reason })
  | .resume client =>
    (some (.resumed client (g.halted.get? client).isSome), { g with halted := g.halted.erase client })
  | .prune => (some (.pruned (g.table.size - g.prune.table.size)), g.prune)

/-- What is seen of a sequence of steps, first step first, and the gate after it; the list of the steps has
the newest first. -/
def run : List (Motion κ ε) → List (Signal κ ε) × SharedGate κ ε
  | [] => ([], {})
  | m :: ms => ((run ms).1 ++ ((run ms).2.step m).1.toList, ((run ms).2.step m).2)

/-- Everybody has run as far as they can. -/
def Settled (g : SharedGate κ ε) : Prop := ∀ m : Motion κ ε, m.isOwn → (g.step m).2 = g

/-- An entrant holds a client. -/
def Holds (g : SharedGate κ ε) (who : ε) (client : κ) : Prop :=
  ∃ n, g.visits.get? who = some { client := client, stage := .inside n }

/-- An entrant is in line for a client, or has its lock and has not looked for a halt yet. -/
def Waits (g : SharedGate κ ε) (who : ε) (client : κ) : Prop :=
  ∃ n, g.visits.get? who = some { client := client, stage := .lined n }

end SharedGate
end VoucherGateway
