import VoucherGateway.Proofs.Traffic.Idle

/-!
# Stretches — operations between their waits

An operation works in stretches: from its beginning, or from a wait, to the next wait or to its end.  Whatever
state a stretch begins in, it keeps the books, and counts a refusal if it ends the operation with one
(`Op.Tallies`).  So what others do while the operation waits does not matter.  The rules of this module follow
the ways in which steps and operations are put together.
-/

namespace VoucherGateway

open VoucherGateway.Action

variable {S : Scheme} {ε δ α β : Type}

/-! ## Stretches of work -/

/-- What a step makes of a tally: the books are kept, and an error counts for so many refusals. -/
def Tallies (cost : Error → Refusals) (T : Tally) : Except Error α × Gateway S → Prop :=
  Ends (fun _ g => T.Counted 0 g.tally) fun e g => T.Counted (cost e) g.tally

/-- What an operation makes of tallies, from one where it goes on now: every stretch keeps the books, and the
error at the end counts for so many refusals. -/
def Progress.Tallies (cost : ε → Refusals) (T : Tally) :
    Progress (Wait S.Party) (Gateway S) ε α → Prop
  | .ended (.ok _) g => T.Counted 0 g.tally
  | .ended (.error e) g => T.Counted (cost e) g.tally
  | .waiting _ g resume => T.Counted 0 g.tally ∧ ∀ g', Progress.Tallies cost g'.tally (resume g')

/-- An operation whose every stretch keeps the books. -/
def Op.Tallies (cost : Error → Refusals) (op : Op S α) : Prop := ∀ g, (op g).Tallies cost g.tally

variable {T U : Tally}

namespace Progress.Tallies

variable {cost : ε → Refusals} {cost' : δ → Refusals} {p : Progress (Wait S.Party) (Gateway S) ε α}

/-- What was done before counts as well. -/
theorem after (h : T.Counted 0 U) (hp : p.Tallies cost U) : p.Tallies cost T := by
  cases p with
  | ended outcome g => cases outcome <;> exact h.trans hp
  | waiting reason g resume => exact ⟨h.trans hp.1, hp.2⟩

theorem andThen {next : Except ε α → Gateway S → Progress (Wait S.Party) (Gateway S) δ β}
    (hp : p.Tallies cost T) (hok : ∀ a g, (next (.ok a) g).Tallies cost' g.tally)
    (herror : ∀ e g T, T.Counted (cost e) g.tally → (next (.error e) g).Tallies cost' T) :
    (p.andThen next).Tallies cost' T := by
  induction p generalizing T with
  | ended outcome g =>
    cases outcome with
    | ok a => exact after hp (hok a g)
    | error e => exact herror e g T hp
  | waiting reason g resume ih => exact ⟨hp.1, fun g' => ih g' (hp.2 g')⟩

/-- What has no part in the tally counts nothing. -/
theorem within_part {σ : Type} (get : Gateway S → σ) {set : σ → Gateway S → Gateway S}
    (hset : ∀ s g, (set s g).tally = g.tally) (hcost : ∀ e, cost e = 0)
    (p : Progress (Wait S.Party) σ ε α) (g : Gateway S) : (p.within get set g).Tallies cost g.tally := by
  induction p generalizing g with
  | ended outcome s =>
    have unchanged : g.tally.Counted 0 (set s g).tally := (hset s g).symm ▸ .refl _
    cases outcome with
    | ok a => exact unchanged
    | error e =>
      change g.tally.Counted (cost e) (set s g).tally
      exact (hcost e).symm ▸ unchanged
  | waiting reason s resume ih => exact ⟨(hset s g).symm ▸ .refl _, fun g' => ih _ g'⟩

theorem ite {c : Prop} [Decidable c] {op op' : Op S α} {cost : Error → Refusals} {g : Gateway S}
    (h : c → (op g).Tallies cost T) (h' : ¬ c → (op' g).Tallies cost T) :
    Progress.Tallies cost T ((if c then op else op') g) := by
  by_cases hc : c
  · rw [if_pos hc]
    exact h hc
  · rw [if_neg hc]
    exact h' hc

end Progress.Tallies

/-! ## How operations are put together -/

namespace Op.Tallies

variable {cost : Error → Refusals}

theorem perform {act : Step S α} (h : ∀ g, VoucherGateway.Tallies cost g.tally (act.run g)) :
    Op.Tallies cost (Gateway.perform act) := by
  intro g
  have h := h g
  change (Progress.ended (act.run g).1 (act.run g).2).Tallies cost g.tally
  rcases hr : act.run g with ⟨e | a, g'⟩ <;> rw [hr] at h <;> exact h

theorem pure (a : α) : Op.Tallies cost (Pure.pure a : Op S α) := fun _ => .refl _

theorem bind {op : Op S α} {next : α → Op S β} (h : op.Tallies cost) (hn : ∀ a, (next a).Tallies cost) :
    Op.Tallies cost (op >>= next) :=
  fun g => (h g).andThen (fun a g' => hn a g') fun _ _ _ he => he

theorem get_bind {next : Gateway S → Op S α} (hn : ∀ g, (next g g).Tallies cost g.tally) :
    Op.Tallies cost (get >>= next) := hn

theorem map {op : Op S α} (h : op.Tallies cost) (f : α → β) : Op.Tallies cost (f <$> op) :=
  h.bind fun a => pure (f a)

theorem wait (reason : Wait S.Party) : Op.Tallies cost (Procedure.wait reason) :=
  fun _ => ⟨.refl _, fun _ => .refl _⟩

/-- What counts no refusal whatever its error counts none when it was attempted. -/
theorem attempt {op : Op S α} (h : op.Tallies fun _ => 0) : Op.Tallies cost (Procedure.attempt op) :=
  fun g => (h g).andThen (fun _ _ => .refl _) fun _ _ _ he => he

/-- A halt has no part in the tally. -/
theorem guarding {client : S.Party} {op : Op S α} (h : op.Tallies cost) :
    Op.Tallies cost (Gateway.guarding client op) := by
  refine fun g => (h g).andThen (fun _ _ => .refl _) fun e g' T he => ?_
  change T.Counted (cost e) (Gateway.haltFor client e g').tally
  have same : (Gateway.haltFor client e g').tally = g'.tally := by
    unfold Gateway.haltFor
    split <;> rfl
  exact same ▸ he

end Op.Tallies

namespace Gateway

variable {cost : Error → Refusals} {g : Gateway S}

/-! ## Steps -/

/-- Nor does an error that refuses nothing. -/
theorem counted_of_noRefusal (hcost : ∀ e, Error.NoRefusal e → cost e = 0) {e : Error} (he : e.NoRefusal)
    (T : Tally) : T.Counted (cost e) T := (hcost e he).symm ▸ .refl T

/-- A step that is idle counts nothing. -/
theorem tallies_of_idle (hcost : ∀ e, Error.NoRefusal e → cost e = 0) {act : Step S α} (h : ∀ T, Idle T act)
    (g : Gateway S) : Tallies cost g.tally (act.run g) := by
  refine (h g.tally g rfl).mono (fun a g' hsame => ?_) fun e g' hsame => ?_
  · exact hsame.symm ▸ .refl _
  · exact hsame.1.symm ▸ counted_of_noRefusal hcost hsame.2 _

/-- Idle steps come before a step that counts. -/
theorem tallies_bind (hcost : ∀ e, Error.NoRefusal e → cost e = 0) {act : Step S α} {next : α → Step S β}
    (h : ∀ T, Idle T act) (hn : ∀ a g, Tallies cost g.tally ((next a).run g)) (g : Gateway S) :
    Tallies cost g.tally ((act >>= next).run g) := by
  refine ends_bind ((h g.tally g rfl).mono_error fun e g' hsame => ?_) fun a g' hsame => ?_
  · exact hsame.1.symm ▸ counted_of_noRefusal hcost hsame.2 _
  · exact hsame ▸ hn a g'

end Gateway
end VoucherGateway
