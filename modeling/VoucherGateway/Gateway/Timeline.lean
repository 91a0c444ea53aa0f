import VoucherGateway.Gateway.Reaper

/-!
# Timeline — a gateway whose time passes

Time moves when somebody sleeps, and when an operation pauses.  A reaper that was started makes its first
pass at once and one more after every interval.  It works while others wait: passes that fall due during a
pause are made then.  At a client whom an operation has, a pass stops until the client is free again, and
the reaper has its turn before the next operation on that client.

Main statement: without a reaper, an operation in time is the operation alone (`run_of_no_reaper`).
-/

namespace VoucherGateway

variable {S : Scheme}

/-- A pass of the reaper, as far as it has come. -/
abbrev Pass (S : Scheme) := Progress (Wait S.Party) (Gateway S) Error ReapReport

/-- A pass that stands in line for a client. -/
structure StoppedPass (S : Scheme) where
  client : S.Party
  resume : Gateway S → Pass S

/-- A reaper that was started. -/
structure Reaper (S : Scheme) where
  /-- When its next pass is due. -/
  due : Nat
  /-- The pass that it has begun and cannot finish yet. -/
  stopped : Option (StoppedPass S) := none
  /-- The gateway that it works for, if another gateway has taken that one's place. -/
  former : Option (Gateway S) := none

/-- A gateway, and the reaper that works beside its operations. -/
structure Timeline (S : Scheme) where
  gateway : Gateway S
  reaper : Option (Reaper S) := none

/-! ## Passes -/

/-- Makes a pass until it is done or comes to the client whom an operation has. -/
def Pass.goOn (taken : Option S.Party) : Pass S → Option (StoppedPass S) × Gateway S
  | .ended _ g => (none, g)
  | .waiting (.turn client) g resume =>
    if taken = some client then (some ⟨client, resume⟩, g) else goOn taken (resume g)
  | .waiting (.pause _) g resume => goOn taken (resume g)

namespace Reaper

/-- Milliseconds from one pass to the next. -/
def interval (g : Gateway S) : Nat := pauseLength g.config.engine.reapInterval

/-- When the next pass is due after one that was due at a time and began later.  A delay of a few
milliseconds is made up for; after a longer one the interval counts from the beginning of the pass. -/
def nextDue (interval due began : Nat) : Nat := (if due + 5 < began then began else due) + interval

/-- Goes on with the pass that was stopped: when it is served, or if its client is not the one whom an
operation has. -/
def resume (taken : Option S.Party) (served : Bool) (r : Reaper S) (g : Gateway S) :
    Reaper S × Gateway S :=
  match r.stopped with
  | none => (r, g)
  | some pass =>
    if served || taken ≠ some pass.client then
      let pass := Pass.goOn taken (pass.resume g)
      ({ r with stopped := pass.1 }, pass.2)
    else (r, g)

/-- Begins the next pass, if it is due and the last one is done. -/
def begin (taken : Option S.Party) (r : Reaper S) (g : Gateway S) : Reaper S × Gateway S :=
  if r.stopped.isNone && r.due ≤ g.now then
    let pass := Pass.goOn taken (Gateway.reap g.now g)
    ({ r with stopped := pass.1, due := nextDue (interval g) r.due g.now }, pass.2)
  else (r, g)

/-- What a reaper does until it has to wait. -/
def work (taken : Option S.Party) (served : Bool) (r : Reaper S) (g : Gateway S) : Reaper S × Gateway S :=
  let resumed := r.resume taken served g
  resumed.1.begin taken resumed.2

end Reaper

/-- A gateway with the stores, the chain and the counters' file of another. -/
def Gateway.withStoresOf (g other : Gateway S) : Gateway S :=
  { g with
    vouchers := other.vouchers, unmarked := other.unmarked, balances := other.balances
    chain := other.chain, metrics := { g.metrics with file := other.metrics.file } }

namespace Timeline

/-- The time. -/
def now (tl : Timeline S) : Nat := tl.gateway.now

/-- Sets the clock. -/
def setClock (tl : Timeline S) (t : Nat) : Timeline S := { tl with gateway := tl.gateway.setClock t }

/-- Lets the reaper do something at the gateway that it works for. -/
def atReaper (act : Reaper S → Gateway S → Reaper S × Gateway S) (tl : Timeline S) : Timeline S :=
  match tl.reaper with
  | none => tl
  | some r =>
    match r.former with
    | none =>
      let done := act r tl.gateway
      { gateway := done.2, reaper := some done.1 }
    | some old =>
      let done := act r (old.withStoresOf tl.gateway)
      { gateway := tl.gateway.withStoresOf done.2
        reaper := some { done.1 with former := some done.2 } }

/-- Lets the reaper work while an operation has a client; `served` says that the reaper is first in line. -/
def reapOn (taken : Option S.Party) (served : Bool) (tl : Timeline S) : Timeline S :=
  -- a former gateway has a gate of its own, where no operation enters any more
  tl.atReaper fun r g => r.work (if r.former.isNone then taken else none) served g

/-- Makes the passes due before a time, at most `n` of them. -/
def reapUntil (taken : Option S.Party) (target : Nat) : (n : Nat) → Timeline S → Timeline S
  | 0, tl => tl
  | n + 1, tl =>
    match tl.reaper with
    | none => tl
    | some r =>
      if r.stopped.isNone && r.due < target then
        reapUntil taken target n ((tl.setClock r.due).reapOn taken false)
      else tl

/-- Pauses while an operation has a client.  Whoever pauses goes on before a pass that falls due at the end
of the pause. -/
def pause (taken : Option S.Party) (millis : Nat) (tl : Timeline S) : Timeline S :=
  if millis = 0 then tl
  else
    let target := tl.now + millis
    let most := millis / Reaper.interval tl.gateway + 1
    ((tl.reapOn taken false).reapUntil taken target most).setClock target

/-- Waits for the turn with a client: a reaper that stands in line for the client is served first. -/
def takeTurn (client : S.Party) (tl : Timeline S) : Timeline S :=
  match tl.reaper with
  | none => tl
  | some r =>
    if r.former.isNone && r.stopped.any (·.client = client) then tl.reapOn (some client) true else tl

/-! ## Operations in time -/

/-- Brings an operation to its end.  `taken` is the client whom it has. -/
def follow {α : Type} (taken : Option S.Party) :
    Progress (Wait S.Party) (Gateway S) Error α → Timeline S → Except Error α × Timeline S
  | .ended outcome g, tl => (outcome, { tl with gateway := g })
  | .waiting (.pause millis) g resume, tl =>
    let tl := pause taken millis { tl with gateway := g }
    follow taken (resume tl.gateway) tl
  | .waiting (.turn client) g resume, tl =>
    let tl := takeTurn client { tl with gateway := g }
    follow (some client) (resume tl.gateway) tl

/-- Runs an operation. -/
def run {α : Type} (tl : Timeline S) (op : Op S α) : Except Error α × Timeline S :=
  follow none (op tl.gateway) tl

/-- Lets time pass.  Whoever sleeps lets the reaper go first at the end. -/
def sleep (tl : Timeline S) (millis : Nat) : Timeline S :=
  (tl.pause none (pauseLength millis)).reapOn none false

/-- Stops the reaper; a pass that it has begun is finished first. -/
def stopReaper (tl : Timeline S) : Timeline S :=
  { tl.atReaper (fun r g => r.resume none true g) with reaper := none }

/-- Starts a reaper in place of the one there is. -/
def startReaper (tl : Timeline S) : Timeline S :=
  -- the first pass is made at once
  reapOn none false { tl.stopReaper with reaper := some { due := tl.now } }

/-- Wakes the reaper; tells whether there is one. -/
def nudgeReaper (tl : Timeline S) : Bool × Timeline S := (tl.reaper.isSome, tl.reapOn none false)

/-- Puts a new gateway in place of the old one: stores, chain and counters' file stay, all else is lost.  A
reaper goes on working for the gateway that it was started for. -/
def restart (tl : Timeline S) : Timeline S :=
  let g := tl.gateway
  { gateway :=
      { vendor := g.vendor, config := g.config, vouchers := g.vouchers, unmarked := g.unmarked
        balances := g.balances, chain := g.chain, metrics := g.metrics.reopen }
    reaper := tl.reaper.map fun r => { r with former := some (r.former.getD g) } }

/-! ## Without a reaper -/

theorem reapOn_of_no_reaper {tl : Timeline S} (h : tl.reaper = none) (taken : Option S.Party)
    (served : Bool) : tl.reapOn taken served = tl := by
  simp [reapOn, atReaper, h]

theorem reapUntil_of_no_reaper {tl : Timeline S} (h : tl.reaper = none) (taken : Option S.Party)
    (target n : Nat) : tl.reapUntil taken target n = tl := by
  cases n <;> simp [reapUntil, h]

theorem pause_of_no_reaper {tl : Timeline S} (h : tl.reaper = none) (taken : Option S.Party)
    (millis : Nat) : tl.pause taken millis = { tl with gateway := tl.gateway.elapse (.pause millis) } := by
  simp only [pause, reapOn_of_no_reaper h, reapUntil_of_no_reaper h]
  split
  · subst millis; rfl
  · rfl

theorem follow_of_no_reaper {α : Type} (p : Progress (Wait S.Party) (Gateway S) Error α)
    (taken : Option S.Party) {tl : Timeline S} (h : tl.reaper = none) :
    follow taken p tl =
      ((p.finish Gateway.elapse).1, { tl with gateway := (p.finish Gateway.elapse).2 }) := by
  induction p generalizing taken tl with
  | ended outcome g => rfl
  | waiting reason g resume ih =>
    cases reason with
    | pause millis =>
      have paused := @pause_of_no_reaper S { tl with gateway := g } h taken millis
      simp only [follow, paused]
      exact ih _ _ h
    | turn client =>
      have waited : takeTurn client { tl with gateway := g } = { tl with gateway := g } := by
        simp [takeTurn, h]
      simp only [follow, waited]
      exact ih _ _ h

/-- Without a reaper, nothing happens while an operation waits but that time passes. -/
theorem run_of_no_reaper {α : Type} {tl : Timeline S} (h : tl.reaper = none) (op : Op S α) :
    tl.run op = ((op.run tl.gateway).1, { tl with gateway := (op.run tl.gateway).2 }) :=
  follow_of_no_reaper _ none h

end Timeline
end VoucherGateway
