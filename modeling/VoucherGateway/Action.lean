/-!
# Action — steps that may fail half-way

An action reads and changes a state and ends with a value or an error.  What it changed before an error
stays changed: a failed step leaves behind exactly the work it had already done.
-/

namespace VoucherGateway

/-- A step on states `σ` that answers an `α` or fails with an `ε`. -/
def Action (σ ε α : Type) : Type := σ → Except ε α × σ

namespace Action

variable {σ τ ε δ α β : Type}

/-- Runs an action from a state. -/
def run (act : Action σ ε α) (s : σ) : Except ε α × σ := act s

instance : Monad (Action σ ε) where
  pure a := fun s => (.ok a, s)
  bind act next := fun s =>
    match act s with
    | (.ok a, s') => next a s'
    | (.error e, s') => (.error e, s')

instance : MonadExceptOf ε (Action σ ε) where
  throw e := fun s => (.error e, s)
  tryCatch act handle := fun s =>
    match act s with
    | (.error e, s') => handle e s'
    | r => r

instance : MonadStateOf σ (Action σ ε) where
  get := fun s => (.ok s, s)
  set s := fun _ => (.ok (), s)
  modifyGet f := fun s => (.ok (f s).1, (f s).2)

/-- An action that only changes the state. -/
def update (f : σ → σ) : Action σ ε Unit := fun s => (.ok (), f s)

/-- An action that only reads the state. -/
def view (f : σ → α) : Action σ ε α := fun s => (.ok (f s), s)

/-- An outcome that is already known. -/
def give (r : Except ε α) : Action σ ε α := fun s => (r, s)

/-- Runs an action and hands its outcome back as a value. -/
def attempt (act : Action σ ε α) : Action σ δ (Except ε α) := fun s => (.ok (act s).1, (act s).2)

/-- Rewords the errors of an action. -/
def mapError (f : ε → δ) (act : Action σ ε α) : Action σ δ α := fun s =>
  match act s with
  | (.ok a, s') => (.ok a, s')
  | (.error e, s') => (.error (f e), s')

/-- Runs an action on a part of a larger state. -/
def within (get : τ → σ) (set : σ → τ → τ) (act : Action σ ε α) : Action τ ε α := fun t =>
  ((act (get t)).1, set (act (get t)).2 t)

/-! ## What each step does -/

@[simp] theorem run_pure (a : α) (s : σ) : run (pure a : Action σ ε α) s = (.ok a, s) := rfl

theorem run_bind (act : Action σ ε α) (next : α → Action σ ε β) (s : σ) :
    run (act >>= next) s =
      match run act s with
      | (.ok a, s') => run (next a) s'
      | (.error e, s') => (.error e, s') := rfl

@[simp] theorem run_throw (e : ε) (s : σ) : run (throw e : Action σ ε α) s = (.error e, s) := rfl

@[simp] theorem run_update (f : σ → σ) (s : σ) :
    run (update f : Action σ ε Unit) s = (.ok (), f s) := rfl

@[simp] theorem run_view (f : σ → α) (s : σ) : run (view f : Action σ ε α) s = (.ok (f s), s) := rfl

@[simp] theorem run_give (r : Except ε α) (s : σ) : run (give r) s = (r, s) := rfl

@[simp] theorem run_attempt (act : Action σ ε α) (s : σ) :
    run (attempt act : Action σ δ _) s = (.ok (run act s).1, (run act s).2) := rfl

@[simp] theorem run_within (get : τ → σ) (set : σ → τ → τ) (act : Action σ ε α) (t : τ) :
    run (within get set act) t = ((run act (get t)).1, set (run act (get t)).2 t) := rfl

theorem run_bind_of_ok {act : Action σ ε α} {next : α → Action σ ε β} {s s' : σ} {a : α}
    (h : run act s = (.ok a, s')) : run (act >>= next) s = run (next a) s' := by
  rw [run_bind, h]

theorem id_map_eq (act : Action σ ε α) : id <$> act = act := by
  funext s
  change (match act s with
    | (.ok a, s') => (Except.ok (id a), s')
    | (.error e, s') => (.error e, s')) = _
  rcases act s with ⟨_ | _, _⟩ <;> rfl

theorem bind_assoc_eq {γ : Type} (act : Action σ ε α) (f : α → Action σ ε β) (g : β → Action σ ε γ) :
    act >>= f >>= g = act >>= fun a => f a >>= g := by
  funext s
  change (match (match act s with | (.ok a, s') => f a s' | (.error e, s') => (.error e, s')) with
    | (.ok b, s') => g b s'
    | (.error e, s') => (.error e, s')) =
    (match act s with
    | (.ok a, s') => (match f a s' with | (.ok b, s'') => g b s'' | (.error e, s'') => (.error e, s''))
    | (.error e, s') => (.error e, s'))
  rcases act s with ⟨_ | _, _⟩ <;> rfl

instance : LawfulMonad (Action σ ε) :=
  LawfulMonad.mk' _ id_map_eq (fun _ _ => rfl) bind_assoc_eq

end Action
end VoucherGateway
