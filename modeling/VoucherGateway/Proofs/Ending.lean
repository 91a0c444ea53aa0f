import VoucherGateway.Gateway.State

/-!
# Ending — what holds when an action ends

An action ends with an answer or with an error, and leaves a state in either case.  `Ends ok bad` says what
holds of the two endings; the rules of this module follow the ways in which actions and operations are put
together.
-/

namespace VoucherGateway

/-- What holds of an ending: `ok` of an answer, `bad` of an error, each with the state that is left. -/
def Ends {σ ε α : Type} (ok : α → σ → Prop) (bad : ε → σ → Prop) : Except ε α × σ → Prop
  | (.ok a, s) => ok a s
  | (.error e, s) => bad e s

theorem Ends.mono {σ ε α : Type} {ok ok' : α → σ → Prop} {bad bad' : ε → σ → Prop}
    {r : Except ε α × σ} (h : Ends ok bad r) (hok : ∀ a s, ok a s → ok' a s)
    (hbad : ∀ e s, bad e s → bad' e s) : Ends ok' bad' r := by
  rcases r with ⟨e | a, s⟩
  · exact hbad e s h
  · exact hok a s h

theorem Ends.mono_error {σ ε α : Type} {ok : α → σ → Prop} {bad bad' : ε → σ → Prop} {r : Except ε α × σ}
    (h : Ends ok bad r) (hbad : ∀ e s, bad e s → bad' e s) : Ends ok bad' r :=
  h.mono (fun _ _ h => h) hbad

theorem Ends.and {σ ε α : Type} {ok ok' : α → σ → Prop} {bad bad' : ε → σ → Prop}
    {r : Except ε α × σ} (h : Ends ok bad r) (h' : Ends ok' bad' r) :
    Ends (fun a s => ok a s ∧ ok' a s) (fun e s => bad e s ∧ bad' e s) r := by
  rcases r with ⟨e | a, s⟩ <;> exact ⟨h, h'⟩

/-- What holds of the state that is left holds however the action ended. -/
theorem Ends.always {σ ε α : Type} {P : σ → Prop} {r : Except ε α × σ} (h : P r.2) :
    Ends (fun _ s => P s) (fun _ s => P s) r := by
  rcases r with ⟨e | a, s⟩ <;> exact h

theorem Ends.of_error {σ ε α : Type} {ok : α → σ → Prop} {bad : ε → σ → Prop} {r : Except ε α × σ}
    (h : Ends ok bad r) {e : ε} (he : r.1 = .error e) : bad e r.2 := by
  rcases r with ⟨e' | a, s⟩
  · obtain rfl := Except.error.inj he
    exact h
  · cases he

theorem Ends.of_ok {σ ε α : Type} {ok : α → σ → Prop} {bad : ε → σ → Prop} {r : Except ε α × σ}
    (h : Ends ok bad r) {a : α} (ha : r.1 = .ok a) : ok a r.2 := by
  rcases r with ⟨e | a', s⟩
  · cases ha
  · obtain rfl := Except.ok.inj ha
    exact h

/-- What holds of outcomes and states holds of both endings. -/
theorem Ends.split {σ ε α : Type} {P : Except ε α → σ → Prop} {r : Except ε α × σ}
    (h : Ends (fun a s => P (.ok a) s) (fun e s => P (.error e) s) r) : P r.1 r.2 := by
  rcases r with ⟨e | a, s⟩ <;> exact h

/-! ## Actions -/

namespace Action

variable {σ τ ε δ α β : Type} {ok : β → σ → Prop} {bad : ε → σ → Prop}

theorem ends_bind {act : Action σ ε α} {next : α → Action σ ε β} {s : σ} {mid : α → σ → Prop}
    (h : Ends mid bad (run act s)) (hn : ∀ a s', mid a s' → Ends ok bad (run (next a) s')) :
    Ends ok bad (run (act >>= next) s) := by
  rw [run_bind]
  rcases hr : run act s with ⟨e | a, s'⟩
  · rw [hr] at h
    exact h
  · rw [hr] at h
    exact hn a s' h

/-- Renaming an answer changes nothing else. -/
theorem ends_map {f : α → β} {act : Action σ ε α} {s : σ} (h : Ends (fun a => ok (f a)) bad (run act s)) :
    Ends ok bad (run (f <$> act) s) := by
  rw [← bind_pure_comp]
  exact ends_bind h fun _ _ ha => ha

@[simp] theorem run_get_bind (next : σ → Action σ ε β) (s : σ) :
    run (get >>= next) s = run (next s) s := rfl

@[simp] theorem run_set_bind (t : σ) (next : PUnit → Action σ ε β) (s : σ) :
    run (set t >>= next) s = run (next ⟨⟩) t := rfl

@[simp] theorem run_update_bind (f : σ → σ) (next : Unit → Action σ ε β) (s : σ) :
    run (update f >>= next) s = run (next ()) (f s) := rfl

@[simp] theorem run_pure_bind (a : α) (next : α → Action σ ε β) (s : σ) :
    run (pure a >>= next) s = run (next a) s := rfl

@[simp] theorem run_give_ok_bind (a : α) (next : α → Action σ ε β) (s : σ) :
    run (give (.ok a) >>= next) s = run (next a) s := rfl

/-- An action on a part of a state ends as it does on the part alone. -/
theorem ends_within {get : τ → σ} {set : σ → τ → τ} {act : Action σ ε α} {t : τ}
    {ok : α → τ → Prop} {bad : ε → τ → Prop} :
    Ends ok bad (run (within get set act) t) ↔
      Ends (fun a s => ok a (set s t)) (fun e s => bad e (set s t)) (run act (get t)) := by
  rw [run_within]
  rcases hr : run act (get t) with ⟨e | a, s⟩ <;> exact Iff.rfl

end Action

/-! ## Operations that run alone -/

namespace Op

variable {S : Scheme} {α β : Type} {ok : β → Gateway S → Prop} {bad : Error → Gateway S → Prop}

theorem ends_bind {op : Op S α} {next : α → Op S β} {g : Gateway S} {mid : α → Gateway S → Prop}
    (h : Ends mid bad (run op g)) (hn : ∀ a g', mid a g' → Ends ok bad (run (next a) g')) :
    Ends ok bad (run (op >>= next) g) := by
  rw [run_bind]
  rcases hr : run op g with ⟨e | a, g'⟩
  · rw [hr] at h
    exact h
  · rw [hr] at h
    exact hn a g' h

@[simp] theorem run_get_bind (next : Gateway S → Op S β) (g : Gateway S) :
    run (get >>= next) g = run (next g) g := rfl

@[simp] theorem run_set_bind (t : Gateway S) (next : PUnit → Op S β) (g : Gateway S) :
    run (set t >>= next) g = run (next ⟨⟩) t := rfl

@[simp] theorem run_pure (a : β) (g : Gateway S) : run (pure a : Op S β) g = (.ok a, g) := rfl

@[simp] theorem run_attempt (op : Op S α) (g : Gateway S) :
    run (Procedure.attempt op) g = (.ok (run op g).1, (run op g).2) :=
  Procedure.run_attempt Gateway.elapse op g

/-- A guard does nothing about harmless errors. -/
theorem ends_guarding (client : S.Party) {op : Op S β} {g : Gateway S} (h : Ends ok bad (run op g))
    (hbad : ∀ e g', bad e g' → e.isFatal = false) : Ends ok bad (run (Gateway.guarding client op) g) := by
  rw [run_guarding]
  rcases hr : run op g with ⟨e | b, g'⟩ <;> rw [hr] at h
  · have hsame : Gateway.haltFor client e g' = g' := by simp [Gateway.haltFor, hbad e g' h]
    dsimp only
    rw [hsame]
    exact h
  · exact h

end Op
end VoucherGateway
