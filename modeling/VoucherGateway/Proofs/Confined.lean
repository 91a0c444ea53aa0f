import VoucherGateway.Proofs.Ending

/-!
# Confinement — actions that keep to their bounds

An action is confined to states with a property if it leaves such states wherever it begins in one, and fails in
certain ways only.  The rules of this module follow the ways in which actions are put together.
-/

namespace VoucherGateway
namespace Action

variable {σ τ ε δ α β : Type} {R : σ → Prop} {Q : ε → Prop}

/-- From states with a property an action leaves states with it, and fails in certain ways only. -/
def Confined (R : σ → Prop) (Q : ε → Prop) (act : Action σ ε α) : Prop :=
  ∀ s, R s → Ends (fun _ s' => R s') (fun e s' => R s' ∧ Q e) (act.run s)

namespace Confined

/-- However it ends, the state that is left has the property. -/
theorem keeps {act : Action σ ε α} (h : Confined R Q act) {s : σ} (hs : R s) : R (act.run s).2 := by
  have h := h s hs
  rcases hr : act.run s with ⟨e | a, s'⟩ <;> rw [hr] at h
  · exact h.1
  · exact h

/-- Where nothing is asked, every action is confined. -/
theorem trivial (act : Action σ ε α) : Confined (fun _ => True) (fun _ => True) act := by
  intro s _
  rcases act.run s with ⟨e | a, s'⟩
  · exact ⟨True.intro, True.intro⟩
  · exact True.intro

theorem pure (a : α) : Confined R Q (Pure.pure a) := fun _ hs => hs

theorem throw {e : ε} (he : Q e) : Confined R Q (MonadExcept.throw e : Action σ ε α) := fun _ hs => ⟨hs, he⟩

theorem bind {act : Action σ ε α} {next : α → Action σ ε β} (h : Confined R Q act)
    (hn : ∀ a, Confined R Q (next a)) : Confined R Q (act >>= next) :=
  fun s hs => ends_bind (h s hs) fun a s' hs' => hn a s' hs'

theorem get_bind {next : σ → Action σ ε β} (hn : ∀ s, R s → Confined R Q (next s)) :
    Confined R Q (get >>= next) := fun s hs => hn s hs s hs

theorem set {t : σ} (ht : R t) : Confined R Q (MonadStateOf.set t : Action σ ε PUnit) := fun _ _ => ht

theorem update {f : σ → σ} (hf : ∀ s, R s → R (f s)) : Confined R Q (Action.update f) := fun s hs => hf s hs

theorem view (f : σ → α) : Confined R Q (Action.view f) := fun _ hs => hs

theorem give {r : Except ε α} (he : ∀ e, r = .error e → Q e) : Confined R Q (Action.give r) := by
  intro s hs
  cases r with
  | ok a => exact hs
  | error e => exact ⟨hs, he e rfl⟩

theorem ite {c : Prop} [Decidable c] {act act' : Action σ ε α} (h : Confined R Q act)
    (h' : Confined R Q act') : Confined R Q (if c then act else act') := by
  split
  · exact h
  · exact h'

/-- What was attempted has not failed. -/
theorem attempt {P : δ → Prop} {act : Action σ ε α} (h : Confined R Q act) :
    Confined R P (Action.attempt act) := by
  intro s hs
  rw [run_attempt]
  exact h.keeps hs

/-- On a part of a state an action is as confined as it is on the part alone. -/
theorem within {T : τ → Prop} {get : τ → σ} {set : σ → τ → τ} {act : Action σ ε α}
    (h : Confined R Q act) (hget : ∀ t, T t → R (get t)) (hset : ∀ s t, R s → T t → T (set s t)) :
    Confined T Q (Action.within get set act) := fun t ht =>
  ends_within.2 ((h (get t) (hget t ht)).mono (fun _ s hs => hset s t hs ht)
    fun _ s hs => ⟨hset s t hs.1 ht, hs.2⟩)

end Confined
end Action
end VoucherGateway
