import VoucherGateway.Action

/-!
# Procedure — actions that wait on their way

A procedure works on a state, may wait any number of times, and ends with a value or an error.  What happens
to the state while it waits is not its own affair: `run` takes that as an argument.  Main statements: an
action is a procedure that never waits (`run_ofAction`), procedures in a row run one after the other
(`run_bind`), and one that works on a part of a state leaves the rest alone (`run_within`).
-/

namespace VoucherGateway

/-- How far a procedure has come: to its end, or to a point where it waits for something. -/
inductive Progress (ω σ ε α : Type)
  | ended (outcome : Except ε α) (s : σ)
  | waiting (reason : ω) (s : σ) (resume : σ → Progress ω σ ε α)

namespace Progress

variable {ω σ τ ε δ ζ α β γ : Type}

/-- Goes on after the end, whatever the outcome. -/
def andThen (next : Except ε α → σ → Progress ω σ δ β) : Progress ω σ ε α → Progress ω σ δ β
  | ended outcome s => next outcome s
  | waiting reason s resume => waiting reason s fun s => andThen next (resume s)

/-- The same progress in a larger state, of which it changes a part. -/
def within (get : τ → σ) (set : σ → τ → τ) : Progress ω σ ε α → τ → Progress ω τ ε α
  | ended outcome s, t => ended outcome (set s t)
  | waiting reason s resume, t => waiting reason (set s t) fun t => within get set (resume (get t)) t

/-- The outcome, if `meanwhile` says what happens at each wait. -/
def finish (meanwhile : ω → σ → σ) : Progress ω σ ε α → Except ε α × σ
  | ended outcome s => (outcome, s)
  | waiting reason s resume => finish meanwhile (resume (meanwhile reason s))

theorem finish_andThen (meanwhile : ω → σ → σ) (next : Except ε α → σ → Progress ω σ δ β)
    (p : Progress ω σ ε α) :
    (p.andThen next).finish meanwhile =
      (next (p.finish meanwhile).1 (p.finish meanwhile).2).finish meanwhile := by
  induction p with
  | ended outcome s => rfl
  | waiting reason s resume ih => exact ih (meanwhile reason s)

/-- If a wait leaves all but the part alone, only the part matters. -/
theorem finish_within {get : τ → σ} {set : σ → τ → τ} {whole : ω → τ → τ} {part : ω → σ → σ}
    (get_whole : ∀ reason s t, get (whole reason (set s t)) = part reason s)
    (set_whole : ∀ reason s s' t, set s' (whole reason (set s t)) = set s' t)
    (p : Progress ω σ ε α) (t : τ) :
    (p.within get set t).finish whole = ((p.finish part).1, set (p.finish part).2 t) := by
  induction p generalizing t with
  | ended outcome s => rfl
  | waiting reason s resume ih =>
    simp only [within, finish, ih, get_whole, set_whole]

theorem andThen_andThen (p : Progress ω σ ε α) (f : Except ε α → σ → Progress ω σ δ β)
    (g : Except δ β → σ → Progress ω σ ζ γ) :
    (p.andThen f).andThen g = p.andThen fun outcome s => (f outcome s).andThen g := by
  induction p with
  | ended outcome s => rfl
  | waiting reason s resume ih =>
    simp only [andThen]
    congr 1
    funext s
    exact ih s

theorem andThen_ended (p : Progress ω σ ε α) : p.andThen ended = p := by
  induction p with
  | ended outcome s => rfl
  | waiting reason s resume ih =>
    simp only [andThen]
    congr 1
    funext s
    exact ih s

end Progress

/-- A step on states `σ` that may wait for an `ω`, and answers an `α` or fails with an `ε`. -/
def Procedure (ω σ ε α : Type) : Type := σ → Progress ω σ ε α

namespace Procedure

variable {ω σ τ ε δ α β γ : Type}

/-- An action, which never waits. -/
def ofAction (act : Action σ ε α) : Procedure ω σ ε α := fun s => .ended (act s).1 (act s).2

/-- What follows a step that may have failed: a failed one ends the procedure. -/
def continuation (next : α → Procedure ω σ ε β) : Except ε α → σ → Progress ω σ ε β
  | .ok a, s => next a s
  | .error e, s => .ended (.error e) s

instance : Monad (Procedure ω σ ε) where
  pure a := fun s => .ended (.ok a) s
  bind p next := fun s => (p s).andThen (continuation next)

instance : MonadExceptOf ε (Procedure ω σ ε) where
  throw e := fun s => .ended (.error e) s
  tryCatch p handle := fun s => (p s).andThen fun
    | .ok a, s => .ended (.ok a) s
    | .error e, s => handle e s

instance : MonadStateOf σ (Procedure ω σ ε) where
  get := fun s => .ended (.ok s) s
  set s := fun _ => .ended (.ok ()) s
  modifyGet f := fun s => .ended (.ok (f s).1) (f s).2

/-- Waits. -/
def wait (reason : ω) : Procedure ω σ ε Unit := fun s => .waiting reason s fun s => .ended (.ok ()) s

/-- Runs a procedure and hands its outcome back as a value. -/
def attempt (p : Procedure ω σ ε α) : Procedure ω σ δ (Except ε α) := fun s =>
  (p s).andThen fun outcome s => .ended (.ok outcome) s

/-- Rewords the errors of a procedure. -/
def mapError (f : ε → δ) (p : Procedure ω σ ε α) : Procedure ω σ δ α := fun s =>
  (p s).andThen fun outcome s => .ended (outcome.mapError f) s

/-- Changes the state when a procedure ends with an error. -/
def onError (f : ε → σ → σ) (p : Procedure ω σ ε α) : Procedure ω σ ε α := fun s =>
  (p s).andThen fun
    | .ok a, s => .ended (.ok a) s
    | .error e, s => .ended (.error e) (f e s)

/-- Runs a procedure on a part of a larger state. -/
def within (get : τ → σ) (set : σ → τ → τ) (p : Procedure ω σ ε α) : Procedure ω τ ε α := fun t =>
  (p (get t)).within get set t

/-- Runs a procedure from a state, if `meanwhile` says what happens at each wait. -/
def run (meanwhile : ω → σ → σ) (p : Procedure ω σ ε α) (s : σ) : Except ε α × σ := (p s).finish meanwhile

/-! ## What each step does -/

variable (meanwhile : ω → σ → σ)

@[simp] theorem run_pure (a : α) (s : σ) :
    run meanwhile (pure a : Procedure ω σ ε α) s = (.ok a, s) := rfl

@[simp] theorem run_throw (e : ε) (s : σ) :
    run meanwhile (throw e : Procedure ω σ ε α) s = (.error e, s) := rfl

@[simp] theorem run_ofAction (act : Action σ ε α) (s : σ) :
    run meanwhile (ofAction act : Procedure ω σ ε α) s = act.run s := rfl

@[simp] theorem run_wait (reason : ω) (s : σ) :
    run meanwhile (wait reason : Procedure ω σ ε Unit) s = (.ok (), meanwhile reason s) := rfl

@[simp] theorem run_get_bind (next : σ → Procedure ω σ ε β) (s : σ) :
    run meanwhile (get >>= next) s = run meanwhile (next s) s := rfl

@[simp] theorem run_set_bind (t : σ) (next : PUnit → Procedure ω σ ε β) (s : σ) :
    run meanwhile (set t >>= next) s = run meanwhile (next ⟨⟩) t := rfl

theorem run_bind (p : Procedure ω σ ε α) (next : α → Procedure ω σ ε β) (s : σ) :
    run meanwhile (p >>= next) s =
      match run meanwhile p s with
      | (.ok a, s') => run meanwhile (next a) s'
      | (.error e, s') => (.error e, s') := by
  change ((p s).andThen (continuation next)).finish meanwhile = _
  rw [Progress.finish_andThen]
  unfold run
  rcases (p s).finish meanwhile with ⟨_ | _, s'⟩ <;> rfl

@[simp] theorem run_attempt (p : Procedure ω σ ε α) (s : σ) :
    run meanwhile (attempt p : Procedure ω σ δ _) s =
      (.ok (run meanwhile p s).1, (run meanwhile p s).2) := by
  change ((p s).andThen _).finish meanwhile = _
  rw [Progress.finish_andThen]
  rfl

@[simp] theorem run_mapError (f : ε → δ) (p : Procedure ω σ ε α) (s : σ) :
    run meanwhile (mapError f p) s =
      ((run meanwhile p s).1.mapError f, (run meanwhile p s).2) := by
  change ((p s).andThen _).finish meanwhile = _
  rw [Progress.finish_andThen]
  rfl

@[simp] theorem run_onError (f : ε → σ → σ) (p : Procedure ω σ ε α) (s : σ) :
    run meanwhile (onError f p) s =
      match run meanwhile p s with
      | (.ok a, s') => (.ok a, s')
      | (.error e, s') => (.error e, f e s') := by
  change ((p s).andThen _).finish meanwhile = _
  rw [Progress.finish_andThen]
  unfold run
  rcases (p s).finish meanwhile with ⟨_ | _, s'⟩ <;> rfl

theorem run_within {get : τ → σ} {set : σ → τ → τ} {whole : ω → τ → τ} {part : ω → σ → σ}
    (get_whole : ∀ reason s t, get (whole reason (set s t)) = part reason s)
    (set_whole : ∀ reason s s' t, set s' (whole reason (set s t)) = set s' t)
    (p : Procedure ω σ ε α) (t : τ) :
    run whole (within get set p) t = ((run part p (get t)).1, set (run part p (get t)).2 t) :=
  Progress.finish_within get_whole set_whole (p (get t)) t

/-! ## The laws of a monad -/

theorem id_map_eq (p : Procedure ω σ ε α) : id <$> p = p := by
  funext s
  change (p s).andThen (continuation fun a => pure (id a)) = p s
  have same : (continuation fun a => pure (id a) : Except ε α → σ → Progress ω σ ε α) = .ended := by
    funext outcome s
    cases outcome <;> rfl
  rw [same, Progress.andThen_ended]

theorem bind_assoc_eq (p : Procedure ω σ ε α) (f : α → Procedure ω σ ε β) (g : β → Procedure ω σ ε γ) :
    p >>= f >>= g = p >>= fun a => f a >>= g := by
  funext s
  change ((p s).andThen (continuation f)).andThen (continuation g) =
    (p s).andThen (continuation fun a => f a >>= g)
  rw [Progress.andThen_andThen]
  congr 1
  funext outcome s
  cases outcome <;> rfl

instance : LawfulMonad (Procedure ω σ ε) :=
  LawfulMonad.mk' _ id_map_eq (fun _ _ => rfl) bind_assoc_eq

end Procedure
end VoucherGateway
