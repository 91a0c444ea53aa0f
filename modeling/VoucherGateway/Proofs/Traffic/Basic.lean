import VoucherGateway.Proofs.Run.Episodes

/-!
# Traffic — operations that work side by side

Many callers use a gateway at once, and so does the reaper.  An operation that waits has stopped half-way; others
begin, go on or end before it goes on itself, time passes, stores fail or come back, and whoever else has the
stores alters them.  Who goes on when is left open here: not only the orders that the gate allows are considered
but every order.  What happens is listed newest first.

Main statement: a run of calls one after another is traffic too (`exists_traffic_of_live`).
-/

namespace VoucherGateway

variable {S : Scheme}

/-- A gateway with the calls that are under way at it. -/
structure Traffic (S : Scheme) where
  gateway : Gateway S
  /-- The calls under way, each with what it has still to do. -/
  waiting : List (Call S × Op S (Reply S)) := []
  /-- The calls that have ended, latest first. -/
  finished : List (Call S × Except Error (Reply S)) := []

namespace Traffic

/-- What happens at a gateway. -/
inductive Occurrence (S : Scheme)
  /-- Somebody calls. -/
  | called (call : Call S)
  /-- The call at a place goes on until it waits again or ends. -/
  | resumed (place : Nat)
  /-- The caller at a place gives up. -/
  | abandoned (place : Nat)
  /-- The stores and the chain answer in another way, or at another time. -/
  | moved (world : World S)
  /-- Others were at the stores or at the settlement queue. -/
  | altered (vouchers : VoucherStore S) (unmarked balances : CostStore S) (settlement : Settlement S)

/-- The traffic after the call at a place has gone on. -/
def resume (t : Traffic S) (place : Nat) : Traffic S :=
  match t.waiting[place]? with
  | none => t
  | some (call, op) =>
    match op t.gateway with
    | .ended outcome g =>
      { gateway := g, waiting := t.waiting.eraseIdx place, finished := (call, outcome) :: t.finished }
    | .waiting _ g rest => { t with gateway := g, waiting := t.waiting.set place (call, rest) }

/-- The traffic after something has happened. -/
def step (t : Traffic S) : Occurrence S → Traffic S
  | .called call => { t with waiting := t.waiting ++ [(call, call.op)] }
  | .resumed place => t.resume place
  | .abandoned place => { t with waiting := t.waiting.eraseIdx place }
  | .moved world => { t with gateway := t.gateway.inWorld world }
  | .altered vouchers unmarked balances settlement =>
    { t with
      gateway :=
        { t.gateway with
          vouchers := vouchers, unmarked := unmarked, balances := balances, settlement := settlement } }

/-- The traffic after all that has happened. -/
def run (t : Traffic S) : List (Occurrence S) → Traffic S
  | [] => t
  | o :: earlier => (run t earlier).step o

theorem run_append (t : Traffic S) (later earlier : List (Occurrence S)) :
    t.run (later ++ earlier) = (t.run earlier).run later := by
  induction later with
  | nil => rfl
  | cons o later ih => exact congrArg (step · o) ih

/-! ## Calls one after another -/

/-- Time passes. -/
theorem elapse_eq_inWorld (reason : Wait S.Party) (g : Gateway S) :
    ∃ world, g.elapse reason = g.inWorld world :=
  ⟨⟨g.vouchers.outage, g.unmarked.outage, g.balances.outage, g.chain.elapse reason⟩, rfl⟩

/-- An operation that is alone goes on whenever time has passed, and comes to its end. -/
theorem exists_run_alone (call : Call S) (finished : List (Call S × Except Error (Reply S)))
    (p : Progress (Wait S.Party) (Gateway S) Error (Reply S)) (op : Op S (Reply S)) (g : Gateway S)
    (hop : op g = p) :
    ∃ os, ({ gateway := g, waiting := [(call, op)], finished := finished } : Traffic S).run os =
      { gateway := (p.finish Gateway.elapse).2
        finished := (call, (p.finish Gateway.elapse).1) :: finished } := by
  induction p generalizing g op with
  | ended outcome s =>
    refine ⟨[.resumed 0], ?_⟩
    simp [run, step, resume, hop, Progress.finish]
  | waiting reason s rest ih =>
    obtain ⟨world, hworld⟩ := elapse_eq_inWorld reason s
    obtain ⟨os, hos⟩ := ih (Gateway.elapse reason s) rest (Gateway.elapse reason s) rfl
    refine ⟨os ++ [.moved world, .resumed 0], ?_⟩
    rw [run_append]
    have first : ({ gateway := g, waiting := [(call, op)], finished := finished } : Traffic S).run
        [.moved world, .resumed 0] =
        { gateway := s.elapse reason, waiting := [(call, rest)], finished := finished } := by
      simp [run, step, resume, hop, hworld]
    rw [first]
    exact hos

end Traffic

namespace Gateway

/-- The calls in a run of episodes with their outcomes, latest first. -/
def outcomes (start : Gateway S) : List (Episode S) → List (Call S × Except Error (Reply S))
  | [] => []
  | .called m :: earlier => (m.call, ((live start earlier).after m).1) :: outcomes start earlier
  | .altered _ :: earlier => outcomes start earlier

/-- A run of calls one after another is traffic too. -/
theorem exists_traffic_of_live (start : Gateway S) (episodes : List (Episode S)) :
    ∃ os, ({ gateway := start } : Traffic S).run os =
      { gateway := start.live episodes, finished := start.outcomes episodes } := by
  induction episodes with
  | nil => exact ⟨[], rfl⟩
  | cons episode earlier ih =>
    obtain ⟨os, hos⟩ := ih
    cases episode with
    | altered i =>
      exact ⟨.altered i.vouchers i.unmarked i.balances i.settlement :: os, congrArg (Traffic.step · _) hos⟩
    | called m =>
      obtain ⟨later, hlater⟩ := Traffic.exists_run_alone m.call (start.outcomes earlier) _ m.call.op
        ((start.live earlier).inWorld m.world) rfl
      refine ⟨later ++ .called m.call :: .moved m.world :: os, ?_⟩
      rw [Traffic.run_append]
      have begun : ({ gateway := start } : Traffic S).run (.called m.call :: .moved m.world :: os) =
          { gateway := (start.live earlier).inWorld m.world, waiting := [(m.call, m.call.op)]
            finished := start.outcomes earlier } := by
        simp only [Traffic.run, hos, Traffic.step, List.nil_append]
      rw [begun]
      exact hlater

end Gateway
end VoucherGateway
