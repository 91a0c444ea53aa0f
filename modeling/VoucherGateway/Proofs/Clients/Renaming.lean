import VoucherGateway.Proofs.Run.Basic

/-!
# Renaming — other numbers for the same queries and sessions

All clients draw the numbers of their queries and sessions from the same counters, so what one client does
shifts the numbers of the others.  A renaming gives queries and sessions other numbers, no two of them the
same; everything that mentions a number is renamed with it, the texts of errors included.
-/

namespace VoucherGateway

/-- Other numbers for queries and sessions, no two of them the same. -/
structure Renaming where
  query : QueryId → QueryId
  session : SessionId → SessionId
  query_injective : Function.Injective query
  session_injective : Function.Injective session

namespace Renaming

/-- Everything keeps its number. -/
def refl : Renaming where
  query id := id
  session id := id
  query_injective _ _ h := h
  session_injective _ _ h := h

end Renaming

variable {S : Scheme} {ρ : Renaming}

/-! ## Records -/

/-- A receipt under other numbers. -/
def Receipt.rename (ρ : Renaming) (r : Receipt S) : Receipt S :=
  { r with query := ρ.query r.query, session := ρ.session r.session }

/-- A query under other numbers. -/
def Query.rename (ρ : Renaming) (q : Query S) : Query S :=
  { q with id := ρ.query q.id, session := ρ.session q.session, receipt := q.receipt.map (·.rename ρ) }

/-- A session under another number. -/
def Session.rename (ρ : Renaming) (s : Session S) : Session S := { s with id := ρ.session s.id }

/-- A broken-off spend, for a query under another number. -/
def PendingSpend.rename (ρ : Renaming) (p : PendingSpend S) : PendingSpend S :=
  { p with query := p.query.map ρ.query }

/-- A call, about queries and sessions under other numbers. -/
def Call.rename (ρ : Renaming) : Call S → Call S
  | .topUp id v => .topUp (ρ.session id) v
  | .acceptQuery session estimated => .acceptQuery (ρ.session session) estimated
  | .settleQuery id usage => .settleQuery (ρ.query id) usage
  | .abortQuery id => .abortQuery (ρ.query id)
  | .closeSession id => .closeSession (ρ.session id)
  | call => call

/-- A reply, about queries and sessions under other numbers. -/
def Reply.rename (ρ : Renaming) : Reply S → Reply S
  | .session id => .session (ρ.session id)
  | .query id => .query (ρ.query id)
  | .receipt r => .receipt (r.rename ρ)
  | reply => reply

@[simp] theorem Query.rename_refl (q : Query S) : q.rename .refl = q := by
  have hreceipt : q.receipt.map (·.rename .refl) = q.receipt := by
    cases q.receipt <;> rfl
  simp only [rename, hreceipt]
  rfl

@[simp] theorem Session.rename_refl (s : Session S) : s.rename .refl = s := rfl

@[simp] theorem PendingSpend.rename_refl (p : PendingSpend S) : p.rename .refl = p := by
  obtain ⟨voucher, query, marked⟩ := p
  cases query <;> rfl

@[simp] theorem Call.rename_refl (call : Call S) : call.rename .refl = call := by cases call <;> rfl

@[simp] theorem Reply.rename_refl (reply : Reply S) : reply.rename .refl = reply := by cases reply <;> rfl

/-! ## Errors -/

/-- Errors that mention neither a query nor a session. -/
def Error.Plain : Error → Prop
  | .unknownSession _ | .sessionClosed _ | .unknownQuery _ | .queryAborted _ | .querySettled _
  | .violation (.queryTransition ..) => False
  | _ => True

/-- The same error, about a query or a session under another number. -/
inductive Error.Alias (ρ : Renaming) : Error → Error → Prop
  | plain {e : Error} (h : e.Plain) : Alias ρ e e
  | unknownSession (id : SessionId) : Alias ρ (.unknownSession id.text) (.unknownSession (ρ.session id).text)
  | foreignSession (id : SessionId) (client : String) :
      Alias ρ (.unknownSession (id.text ++ " for client " ++ client))
        (.unknownSession ((ρ.session id).text ++ " for client " ++ client))
  | sessionClosed (id : SessionId) : Alias ρ (.sessionClosed id.text) (.sessionClosed (ρ.session id).text)
  | unknownQuery (id : QueryId) : Alias ρ (.unknownQuery id.text) (.unknownQuery (ρ.query id).text)
  | queryAborted (id : QueryId) : Alias ρ (.queryAborted id.text) (.queryAborted (ρ.query id).text)
  | querySettled (id : QueryId) : Alias ρ (.querySettled id.text) (.querySettled (ρ.query id).text)

namespace Error

/-- What nobody renames stays as it is. -/
theorem Alias.eq_of_refl {e e' : Error} (h : Alias .refl e e') : e' = e := by
  cases h <;> rfl

/-- Contradictions and halts mention no numbers. -/
theorem Alias.eq_of_isFatal {e e' : Error} (h : Alias ρ e e') (hfatal : e.isFatal = true) : e' = e := by
  cases h with
  | plain _ => rfl
  | _ => cases hfatal

theorem Alias.isFatal {e e' : Error} (h : Alias ρ e e') : e'.isFatal = e.isFatal := by
  cases h <;> rfl

end Error

/-! ## Replies -/

/-- The event that is recorded before a caller gets an answer. -/
def Reply.event? : Reply S → Option Event
  | .session _ => some .sessionAccepted
  | .receipt r => some (.querySettled r.actual)
  | _ => none

/-- Callers on two sides are told the same, under other numbers.  If it is told once an event is recorded, each of
them is told by the counters of its side. -/
inductive Reply.Same (ρ : Renaming) (c c' : Counters) : Reply S → Reply S → Prop
  | answered (reply : Reply S) : Same ρ c c' reply (reply.rename ρ)
  | recorded {answer : Reply S} {e : Event} (h : answer.event? = some e) :
    Same ρ c c' (c.reply e answer) (c'.reply e (answer.rename ρ))

theorem Reply.Same.of_eq {c c' : Counters} {reply reply' : Reply S} (h : reply' = reply.rename ρ) :
    Reply.Same ρ c c' reply reply' :=
  h ▸ .answered reply

/-- Nothing can be told apart under the same numbers and counters. -/
theorem Reply.Same.eq_of_refl {c : Counters} {reply reply' : Reply S} (h : Reply.Same .refl c c reply reply') :
    reply' = reply := by
  cases h with
  | answered => exact rename_refl _
  | recorded _ => rw [rename_refl]

/-! ## Outcomes -/

/-- The same outcome under other numbers: the answers are related, or the errors are. -/
inductive SameOutcome (ρ : Renaming) {α : Type} (V : α → α → Prop) : Except Error α → Except Error α → Prop
  | ok {a a' : α} (h : V a a') : SameOutcome ρ V (.ok a) (.ok a')
  | error {e e' : Error} (h : e.Alias ρ e') : SameOutcome ρ V (.error e) (.error e')

namespace SameOutcome

variable {α β : Type} {V V' : α → α → Prop} {r r' : Except Error α}

theorem mono (h : SameOutcome ρ V r r') (himp : ∀ a a', V a a' → V' a a') : SameOutcome ρ V' r r' := by
  cases h with
  | ok h => exact .ok (himp _ _ h)
  | error h => exact .error h

theorem map {U : β → β → Prop} {f f' : α → β} (h : SameOutcome ρ V r r') (hf : ∀ a a', V a a' → U (f a) (f' a')) :
    SameOutcome ρ U (r.map f) (r'.map f') := by
  cases h with
  | ok h => exact .ok (hf _ _ h)
  | error h => exact .error h

theorem eq_of_refl (h : SameOutcome .refl V r r') (heq : ∀ a a', V a a' → a' = a) : r' = r := by
  cases h with
  | ok h => rw [heq _ _ h]
  | error h => rw [h.eq_of_refl]

/-- One outcome that mentions no numbers. -/
theorem of_plain {V : α → α → Prop} (hok : ∀ a, r = .ok a → V a a) (herror : ∀ e, r = .error e → e.Plain) :
    SameOutcome ρ V r r := by
  cases r with
  | ok a => exact .ok (hok a rfl)
  | error e => exact .error (.plain (herror e rfl))

end SameOutcome
end VoucherGateway
