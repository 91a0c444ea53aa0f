import VoucherGateway.Proofs.Clients.Amendments
import VoucherGateway.Proofs.Clients.Worlds

/-!
# Beside — two gateways that serve the same client

Two gateways stand *abreast* while both serve one client: their ledgers match on some clients, this one among
them, their worlds are not told apart, and on either side nothing has happened to the other clients since the
operation began.  An operation *echoes* another if from gateways abreast both come to the same outcome, under
other numbers, and leave the gateways abreast.  The rules of this module follow the ways in which actions and
operations are put together.
-/

namespace VoucherGateway

variable {S : Scheme} {ρ : Renaming}

/-! ## One side -/

/-- What a gateway holds: the ledger, but for the counters, which belong to no client. -/
def Gateway.holdings (g : Gateway S) : Ledger S := { g.ledger with counters := {} }

/-- The world that a gateway is in. -/
def Gateway.world (g : Gateway S) : World S := ⟨g.vouchers.outage, g.unmarked.outage, g.balances.outage, g.chain⟩

namespace Ledger

/-- What no operation changes. -/
def terms (L : Ledger S) : S.Party × GatewayConfig × Option UInt64 := (L.vendor, L.config, L.misreported)

theorem terms_amend (L : Ledger S) (client : S.Party) (a : Amendment S) : (L.amend client a).terms = L.terms := by
  cases a <;> rfl

/-- No number was given out, and no query has moved. -/
structure Unmoved (K L : Ledger S) : Prop where
  queries : L.queries.next = K.queries.next
  sessions : L.sessions.next = K.sessions.next
  states : ∀ q ∈ L.queries.rows, ∃ q₀ ∈ K.queries.rows, q₀.id = q.id ∧ q₀.state = q.state

/-- An amendment gives no number out and moves no query. -/
def Unmoving (L : Ledger S) : Amendment S → Prop
  | .query id f => ∀ q ∈ L.queries.rows, q.id = id → (f q).id = q.id ∧ (f q).state = q.state
  | .numbered | .reserved _ | .opened _ => False
  | _ => True

theorem Unmoved.refl (L : Ledger S) : L.Unmoved L := ⟨rfl, rfl, fun q hq => ⟨q, hq, rfl, rfl⟩⟩

theorem Unmoved.amend {K L : Ledger S} {client : S.Party} {a : Amendment S} (h : K.Unmoved L)
    (ha : L.Unmoving a) : K.Unmoved (L.amend client a) := by
  cases a with
  | query id f =>
    refine ⟨h.queries, h.sessions, ?_⟩
    intro x hx
    obtain ⟨q, hq, rfl⟩ := List.mem_map.1 hx
    obtain ⟨q₀, hq₀, hid, hstate⟩ := h.states q hq
    refine ⟨q₀, hq₀, ?_⟩
    split
    · next hq' =>
      obtain ⟨hid', hstate'⟩ := ha q hq hq'
      exact ⟨hid.trans hid'.symm, hstate.trans hstate'.symm⟩
    · exact ⟨hid, hstate⟩
  | numbered => exact ha.elim
  | reserved q => exact ha.elim
  | opened s => exact ha.elim
  | _ => exact ⟨h.queries, h.sessions, h.states⟩

end Ledger

/-- Where an operation begins. -/
structure Side (S : Scheme) where
  owners : Owners S
  ledger : Ledger S
  world : World S
  tidy : ledger.Tidy owners

/-- What an operation on a client may have done since it began; while it is early, no number was given out and no
query has moved. -/
structure Since (client : S.Party) (start : Side S) (early : Prop) (L : Ledger S) (w : World S) : Prop where
  tidy : L.Tidy start.owners
  others : start.ledger.Matches (fun c => decide (c ≠ client)) .refl L
  terms : L.terms = start.ledger.terms
  queries : start.ledger.queries.next ≤ L.queries.next
  sessions : start.ledger.sessions.next ≤ L.sessions.next
  world : start.world.Quiet → start.world.Twins w
  unmoved : early → start.ledger.Unmoved L

namespace Since

variable {client : S.Party} {start : Side S} {early : Prop} {L : Ledger S} {w : World S}

/-- At the beginning nothing has been done. -/
theorem begin : Since client start early start.ledger start.world where
  tidy := start.tidy
  others := .refl _ _
  terms := rfl
  queries := Nat.le_refl _
  sessions := Nat.le_refl _
  world := .refl
  unmoved _ := .refl _

theorem amend {a : Amendment S} (h : Since client start early L w) (hfits : L.Fits start.owners client a)
    (ha : early → L.Unmoving a) : Since client start early (L.amend client a) w where
  tidy := h.tidy.amend hfits
  others := h.others.amend_unwatched h.tidy hfits (by simp)
  terms := (L.terms_amend client a).trans h.terms
  queries := Nat.le_trans h.queries (L.next_query_amend client a)
  sessions := Nat.le_trans h.sessions (L.next_session_amend client a)
  world := h.world
  unmoved he := (h.unmoved he).amend (ha he)

theorem inWorld {w' : World S} (h : Since client start early L w) (hw : w.Quiet → w.Twins w') :
    Since client start early L w' :=
  { h with world := fun hq => (h.world hq).trans (hw (h.world hq).right) }

theorem late (h : Since client start early L w) : Since client start False L w :=
  { h with unmoved := False.elim }

/-- Everything kept of the others is as it was. -/
theorem account (h : Since client start early L w) {other : S.Party} (hne : other ≠ client) :
    L.account other = start.ledger.account other := by
  have haccount := h.others.account (decide_eq_true hne)
  rwa [Account.rename_refl] at haccount

/-- The rows of others are those that were there before. -/
theorem mem_queries (h : Since client start early L w) {q : Query S} (hq : q ∈ L.queries.rows)
    (hne : q.client ≠ client) : q ∈ start.ledger.queries.rows := by
  have hmem : q ∈ L.queries.rows.filter fun q => decide (q.client ≠ client) :=
    List.mem_filter.2 ⟨hq, decide_eq_true hne⟩
  rw [h.others.queries] at hmem
  obtain ⟨q₀, hq₀, rfl⟩ := List.mem_map.1 hmem
  rw [Query.rename_refl]
  exact (List.mem_filter.1 hq₀).1

theorem mem_sessions (h : Since client start early L w) {s : Session S} (hs : s ∈ L.sessions.rows)
    (hne : s.client ≠ client) : s ∈ start.ledger.sessions.rows := by
  have hmem : s ∈ L.sessions.rows.filter fun s => decide (s.client ≠ client) :=
    List.mem_filter.2 ⟨hs, decide_eq_true hne⟩
  rw [h.others.sessions] at hmem
  obtain ⟨s₀, hs₀, rfl⟩ := List.mem_map.1 hmem
  exact (List.mem_filter.1 hs₀).1

end Since

/-! ## Two sides -/

/-- How two gateways go together when they begin to serve a client. -/
structure Pairing (S : Scheme) where
  client : S.Party
  /-- The clients on whom the ledgers match. -/
  watched : S.Party → Bool
  watches : watched client = true
  /-- The numbers on the right for those on the left. -/
  numbers : Renaming
  left : Side S
  right : Side S
  matched : left.ledger.Matches watched numbers right.ledger
  worlds : left.world.Like right.world
  terms : right.ledger.terms = left.ledger.terms

/-- Two ledgers in their worlds, abreast. -/
structure Pairing.Level (σ : Pairing S) (early : Prop) (L L' : Ledger S) (w w' : World S) : Prop where
  left : Since σ.client σ.left early L w
  right : Since σ.client σ.right early L' w'
  matched : L.Matches σ.watched σ.numbers L'
  worlds : w.Like w'
  terms : L'.terms = L.terms
  queries : L'.queries.next + σ.left.ledger.queries.next = L.queries.next + σ.right.ledger.queries.next
  sessions : L'.sessions.next + σ.left.ledger.sessions.next = L.sessions.next + σ.right.ledger.sessions.next

/-- Two gateways abreast. -/
def Pairing.Abreast (σ : Pairing S) (early : Prop) (g g' : Gateway S) : Prop :=
  σ.Level early g.holdings g'.holdings g.world g'.world

namespace Pairing.Level

variable {σ : Pairing S} {early : Prop} {L L' : Ledger S} {w w' : World S}

/-- At the beginning they stand abreast. -/
theorem begin : σ.Level early σ.left.ledger σ.right.ledger σ.left.world σ.right.world where
  left := .begin
  right := .begin
  matched := σ.matched
  worlds := σ.worlds
  terms := σ.terms
  queries := Nat.add_comm _ _
  sessions := Nat.add_comm _ _

theorem amend {a a' : Amendment S} (h : σ.Level early L L' w w') (halias : a.Alias σ.numbers a')
    (hfits : L.Fits σ.left.owners σ.client a) (hfits' : L'.Fits σ.right.owners σ.client a')
    (ha : early → L.Unmoving a ∧ L'.Unmoving a') :
    σ.Level early (L.amend σ.client a) (L'.amend σ.client a') w w' where
  left := h.left.amend hfits fun he => (ha he).1
  right := h.right.amend hfits' fun he => (ha he).2
  matched := h.matched.amend hfits hfits' halias σ.watches
  worlds := h.worlds
  terms := by rw [Ledger.terms_amend, Ledger.terms_amend, h.terms]
  queries := by
    have hnext := h.queries
    cases halias <;> simp only [Ledger.amend, QueryTable.update, QueryTable.insert, QueryTable.allocate] <;> omega
  sessions := by
    have hnext := h.sessions
    cases halias <;> simp only [Ledger.amend, SessionTable.update] <;> omega

theorem late (h : σ.Level early L L' w w') : σ.Level False L L' w w' :=
  { h with left := h.left.late, right := h.right.late }

/-- What is kept of the client is the same, under other numbers. -/
theorem folio (h : σ.Level early L L' w w') : L'.folio σ.client = (L.folio σ.client).rename σ.numbers :=
  h.matched.folio σ.client σ.watches

end Pairing.Level

/-! ## Ends under other numbers -/

/-- Two runs end alike: both with an error, the same under other numbers, or both with an answer; what holds of
the states depends on which. -/
inductive EndAlike (ρ : Renaming) {σ α : Type} (ok : α → σ → α → σ → Prop) (bad : σ → σ → Prop) :
    Except Error α × σ → Except Error α × σ → Prop
  | error {e e' : Error} {s s' : σ} (he : e.Alias ρ e') (hs : bad s s') :
      EndAlike ρ ok bad (.error e, s) (.error e', s')
  | ok {a a' : α} {s s' : σ} (h : ok a s a' s') : EndAlike ρ ok bad (.ok a, s) (.ok a', s')

namespace EndAlike

variable {σ α : Type} {R bad : σ → σ → Prop} {V : α → α → Prop} {r r' : Except Error α × σ}

/-- What holds of the states in any case may be put to whichever end. -/
theorem of_sameOutcome (hout : SameOutcome ρ V r.1 r'.1) (hs : R r.2 r'.2) (hbad : ∀ s s', R s s' → bad s s') :
    EndAlike ρ (fun a s a' s' => V a a' ∧ R s s') bad r r' := by
  obtain ⟨r, s⟩ := r
  obtain ⟨r', s'⟩ := r'
  cases hout with
  | ok ha => exact .ok ⟨ha, hs⟩
  | error he => exact .error he (hbad s s' hs)

theorem sameOutcome (h : EndAlike ρ (fun a s a' s' => V a a' ∧ R s s') R r r') :
    SameOutcome ρ V r.1 r'.1 ∧ R r.2 r'.2 := by
  cases h with
  | error he hs => exact ⟨.error he, hs⟩
  | ok h => exact ⟨.ok h.1, h.2⟩

end EndAlike

/-- An action goes on after an answer. -/
theorem Action.endAlike_bind {σ α β : Type} {bad : σ → σ → Prop} {ok : α → σ → α → σ → Prop}
    {ok' : β → σ → β → σ → Prop} {act act' : Action σ Error α} {next next' : α → Action σ Error β} {s s' : σ}
    (h : EndAlike ρ ok bad (act.run s) (act'.run s'))
    (hn : ∀ a t a' t', ok a t a' t' → EndAlike ρ ok' bad ((next a).run t) ((next' a').run t')) :
    EndAlike ρ ok' bad ((act >>= next).run s) ((act' >>= next').run s') := by
  rw [run_bind, run_bind]
  generalize act.run s = r at h ⊢
  generalize act'.run s' = r' at h ⊢
  cases h with
  | error he hs => exact .error he hs
  | ok h => exact hn _ _ _ _ h

/-- And so does an operation. -/
theorem Op.endAlike_bind {α β : Type} {bad : Gateway S → Gateway S → Prop} {ok : α → Gateway S → α → Gateway S → Prop}
    {ok' : β → Gateway S → β → Gateway S → Prop} {op op' : Op S α} {next next' : α → Op S β} {g g' : Gateway S}
    (h : EndAlike ρ ok bad (op.run g) (op'.run g'))
    (hn : ∀ a k a' k', ok a k a' k' → EndAlike ρ ok' bad ((next a).run k) ((next' a').run k')) :
    EndAlike ρ ok' bad ((op >>= next).run g) ((op' >>= next').run g') := by
  rw [run_bind, run_bind]
  generalize op.run g = r at h ⊢
  generalize op'.run g' = r' at h ⊢
  cases h with
  | error he hs => exact .error he hs
  | ok h => exact hn _ _ _ _ h

/-- Errors that halt a client are the same on both sides, and so is the reason for which it is halted. -/
theorem Op.endAlike_guarding {α : Type} {bad : Gateway S → Gateway S → Prop}
    {ok : α → Gateway S → α → Gateway S → Prop} {client : S.Party} {op op' : Op S α} {g g' : Gateway S}
    (h : EndAlike ρ ok bad (op.run g) (op'.run g'))
    (hhalt : ∀ (e : Error) (k k' : Gateway S), bad k k' →
      bad { k with gate := k.gate.halt client e.message } { k' with gate := k'.gate.halt client e.message }) :
    EndAlike ρ ok bad ((Gateway.guarding client op).run g) ((Gateway.guarding client op').run g') := by
  rw [run_guarding, run_guarding]
  generalize op.run g = r at h ⊢
  generalize op'.run g' = r' at h ⊢
  cases h with
  | ok h => exact .ok h
  | @error e e' k k' he hk =>
    refine .error he ?_
    -- fatal errors mention no numbers, so both sides write down the same reason
    unfold Gateway.haltFor
    rw [he.isFatal]
    by_cases hfatal : e.isFatal = true
    · rw [if_pos hfatal, if_pos hfatal, he.eq_of_isFatal hfatal]
      exact hhalt e k k' hk
    · rw [if_neg hfatal, if_neg hfatal]
      exact hk

/-! ## Echoes -/

namespace Action

variable {σ τ α β : Type}

/-- From related states an action comes to the same outcome as another, under other numbers, and to related
states. -/
def Echo (ρ : Renaming) (R R' : σ → σ → Prop) (V : α → α → Prop) (act act' : Action σ Error α) : Prop :=
  ∀ s s', R s s' → SameOutcome ρ V (act.run s).1 (act'.run s').1 ∧ R' (act.run s).2 (act'.run s').2

namespace Echo

variable {R R₁ R' : σ → σ → Prop} {V : α → α → Prop} {U : β → β → Prop}

theorem pure {a a' : α} (h : V a a') : Echo ρ R R V (Pure.pure a) (Pure.pure a') := fun _ _ hs => ⟨.ok h, hs⟩

theorem throw {e e' : Error} (h : e.Alias ρ e') : Echo ρ R R V (MonadExcept.throw e) (MonadExcept.throw e') :=
  fun _ _ hs => ⟨.error h, hs⟩

/-- Where what comes next depends on the answer. -/
theorem ends_bind {bad : σ → σ → Prop} {ok : β → σ → β → σ → Prop} {act act' : Action σ Error α}
    {next next' : α → Action σ Error β} {s s' : σ} (h : Echo ρ R R₁ V act act') (hs : R s s')
    (hbad : ∀ t t', R₁ t t' → bad t t')
    (hn : ∀ a a', V a a' → ∀ t t', R₁ t t' → EndAlike ρ ok bad ((next a).run t) ((next' a').run t')) :
    EndAlike ρ ok bad ((act >>= next).run s) ((act' >>= next').run s') :=
  have ⟨hout, hrel⟩ := h s s' hs
  endAlike_bind (.of_sameOutcome hout hrel hbad) fun a t a' t' ⟨ha, ht⟩ => hn a a' ha t t' ht

/-- Actions in a row; where the first one fails, its states must be good enough for the whole. -/
theorem bind_last {act act' : Action σ Error α} {next next' : α → Action σ Error β} (h : Echo ρ R R₁ V act act')
    (hn : ∀ a a', V a a' → Echo ρ R₁ R' U (next a) (next' a')) (hR : ∀ s s', R₁ s s' → R' s s') :
    Echo ρ R R' U (act >>= next) (act' >>= next') := by
  intro s s' hs
  refine (h.ends_bind hs hR fun a a' ha t t' ht => ?_).sameOutcome
  obtain ⟨hout, hrel⟩ := hn a a' ha t t' ht
  exact .of_sameOutcome hout hrel fun _ _ h => h

theorem bind {act act' : Action σ Error α} {next next' : α → Action σ Error β} (h : Echo ρ R R V act act')
    (hn : ∀ a a', V a a' → Echo ρ R R U (next a) (next' a')) : Echo ρ R R U (act >>= next) (act' >>= next') :=
  h.bind_last hn fun _ _ hs => hs

theorem get_bind {next next' : σ → Action σ Error β} (hn : ∀ s s', R s s' → Echo ρ R R' U (next s) (next' s')) :
    Echo ρ R R' U (get >>= next) (get >>= next') := fun s s' hs => hn s s' hs s s' hs

theorem set {t t' : σ} (h : R' t t') :
    Echo ρ R R' (fun _ _ => True) (MonadStateOf.set t : Action σ Error PUnit) (MonadStateOf.set t') :=
  fun _ _ _ => ⟨.ok trivial, h⟩

theorem update {f f' : σ → σ} (h : ∀ s s', R s s' → R' (f s) (f' s')) :
    Echo ρ R R' (fun _ _ => True) (Action.update f : Action σ Error Unit) (Action.update f') :=
  fun s s' hs => ⟨.ok trivial, h s s' hs⟩

theorem ite {c : Prop} [Decidable c] {act act' other other' : Action σ Error α} (h : Echo ρ R R' V act act')
    (h' : Echo ρ R R' V other other') : Echo ρ R R' V (if c then act else other) (if c then act' else other') := by
  split
  · exact h
  · exact h'

theorem attempt {act act' : Action σ Error α} (h : Echo ρ R R' V act act') :
    Echo ρ R R' (SameOutcome ρ V) (Action.attempt act : Action σ Error _) (Action.attempt act') := fun s s' hs =>
  ⟨.ok (h s s' hs).1, (h s s' hs).2⟩

/-- Each side may keep to something else beside. -/
theorem beside {P Q : σ → Prop} {act act' : Action σ Error α} (h : Echo ρ R R' V act act')
    (hl : ∀ s, P s → P (act.run s).2) (hr : ∀ s, Q s → Q (act'.run s).2) :
    Echo ρ (fun s s' => R s s' ∧ P s ∧ Q s') (fun s s' => R' s s' ∧ P s ∧ Q s') V act act' :=
  fun s s' hs => ⟨(h s s' hs.1).1, (h s s' hs.1).2, hl s hs.2.1, hr s' hs.2.2⟩

theorem mono {R₂ : σ → σ → Prop} {V' : α → α → Prop} {act act' : Action σ Error α} (h : Echo ρ R R' V act act')
    (hR : ∀ s s', R' s s' → R₂ s s') (hV : ∀ a a', V a a' → V' a a') : Echo ρ R R₂ V' act act' := fun s s' hs =>
  ⟨(h s s' hs).1.mono hV, hR _ _ (h s s' hs).2⟩

end Echo
end Action

/-- The same of two operations that run alone. -/
def Op.Echo {α : Type} (ρ : Renaming) (R R' : Gateway S → Gateway S → Prop) (V : α → α → Prop) (op op' : Op S α) :
    Prop :=
  ∀ g g', R g g' → SameOutcome ρ V (op.run g).1 (op'.run g').1 ∧ R' (op.run g).2 (op'.run g').2

/-- Steps that echo each other do so as operations. -/
theorem Action.Echo.perform {α : Type} {R R' : Gateway S → Gateway S → Prop} {V : α → α → Prop}
    {step step' : Step S α} (h : Echo ρ R R' V step step') :
    Op.Echo ρ R R' V (Gateway.perform step) (Gateway.perform step') := h

namespace Op

variable {α β : Type}

namespace Echo

variable {R R₁ R' : Gateway S → Gateway S → Prop} {V : α → α → Prop} {U : β → β → Prop}

theorem pure {a a' : α} (h : V a a') : Echo ρ R R V (Pure.pure a : Op S α) (Pure.pure a') := fun _ _ hg => ⟨.ok h, hg⟩

/-- Nothing comes after an error. -/
theorem throw_bind {e e' : Error} {next next' : α → Op S β} (h : e.Alias ρ e') :
    Echo ρ R R U ((MonadExcept.throw e : Op S α) >>= next) ((MonadExcept.throw e' : Op S α) >>= next') :=
  fun _ _ hg => ⟨.error h, hg⟩

/-- Where what comes next depends on the answer. -/
theorem ends_bind {bad : Gateway S → Gateway S → Prop} {ok : β → Gateway S → β → Gateway S → Prop} {op op' : Op S α}
    {next next' : α → Op S β} {g g' : Gateway S} (h : Echo ρ R R₁ V op op') (hg : R g g')
    (hbad : ∀ k k', R₁ k k' → bad k k')
    (hn : ∀ a a', V a a' → ∀ k k', R₁ k k' → EndAlike ρ ok bad ((next a).run k) ((next' a').run k')) :
    EndAlike ρ ok bad ((op >>= next).run g) ((op' >>= next').run g') :=
  have ⟨hout, hrel⟩ := h g g' hg
  endAlike_bind (.of_sameOutcome hout hrel hbad) fun a k a' k' ⟨ha, hk⟩ => hn a a' ha k k' hk

/-- Operations in a row; where the first one fails, its gateways must be good enough for the whole. -/
theorem bind_last {op op' : Op S α} {next next' : α → Op S β} (h : Echo ρ R R₁ V op op')
    (hn : ∀ a a', V a a' → Echo ρ R₁ R' U (next a) (next' a')) (hR : ∀ g g', R₁ g g' → R' g g') :
    Echo ρ R R' U (op >>= next) (op' >>= next') := by
  intro g g' hg
  refine (h.ends_bind hg hR fun a a' ha k k' hk => ?_).sameOutcome
  obtain ⟨hout, hrel⟩ := hn a a' ha k k' hk
  exact .of_sameOutcome hout hrel fun _ _ h => h

theorem bind {op op' : Op S α} {next next' : α → Op S β} (h : Echo ρ R R V op op')
    (hn : ∀ a a', V a a' → Echo ρ R R U (next a) (next' a')) : Echo ρ R R U (op >>= next) (op' >>= next') :=
  h.bind_last hn fun _ _ hg => hg

theorem get_bind {next next' : Gateway S → Op S β} (hn : ∀ g g', R g g' → Echo ρ R R' U (next g) (next' g')) :
    Echo ρ R R' U (get >>= next) (get >>= next') := fun g g' hg => hn g g' hg g g' hg

theorem set_bind {t t' : Gateway S} {next next' : PUnit → Op S β} (h : R₁ t t')
    (hn : Echo ρ R₁ R' U (next ⟨⟩) (next' ⟨⟩)) : Echo ρ R R' U (set t >>= next) (set t' >>= next') :=
  fun _ _ _ => hn t t' h

theorem ite {c : Prop} [Decidable c] {op op' other other' : Op S α} (h : Echo ρ R R' V op op')
    (h' : Echo ρ R R' V other other') : Echo ρ R R' V (if c then op else other) (if c then op' else other') := by
  split
  · exact h
  · exact h'

theorem attempt {op op' : Op S α} (h : Echo ρ R R' V op op') :
    Echo ρ R R' (SameOutcome ρ V) (Procedure.attempt op : Op S (Except Error α)) (Procedure.attempt op') := by
  intro g g' hg
  rw [run_attempt, run_attempt]
  exact ⟨.ok (h g g' hg).1, (h g g' hg).2⟩

theorem map {op op' : Op S α} {f f' : α → β} (h : Echo ρ R R' V op op') (hf : ∀ a a', V a a' → U (f a) (f' a')) :
    Echo ρ R R' U (f <$> op) (f' <$> op') := by
  intro g g' hg
  rw [run_map, run_map]
  exact ⟨(h g g' hg).1.map hf, (h g g' hg).2⟩

/-- Each side may keep to something else beside. -/
theorem beside {P Q : Gateway S → Prop} {op op' : Op S α} (h : Echo ρ R R' V op op')
    (hl : ∀ g, P g → P (op.run g).2) (hr : ∀ g, Q g → Q (op'.run g).2) :
    Echo ρ (fun g g' => R g g' ∧ P g ∧ Q g') (fun g g' => R' g g' ∧ P g ∧ Q g') V op op' :=
  fun g g' hg => ⟨(h g g' hg.1).1, (h g g' hg.1).2, hl g hg.2.1, hr g' hg.2.2⟩

theorem mono {R₂ : Gateway S → Gateway S → Prop} {V' : α → α → Prop} {op op' : Op S α} (h : Echo ρ R R' V op op')
    (hR : ∀ g g', R' g g' → R₂ g g') (hV : ∀ a a', V a a' → V' a a') : Echo ρ R R₂ V' op op' := fun g g' hg =>
  ⟨(h g g' hg).1.mono hV, hR _ _ (h g g' hg).2⟩

theorem guarding {client : S.Party} {op op' : Op S α} (h : Echo ρ R R' V op op')
    (hhalt : ∀ (e : Error) (g g' : Gateway S), R' g g' →
      R' { g with gate := g.gate.halt client e.message } { g' with gate := g'.gate.halt client e.message }) :
    Echo ρ R R' V (Gateway.guarding client op) (Gateway.guarding client op') := by
  intro g g' hg
  obtain ⟨hout, hrel⟩ := h g g' hg
  exact (endAlike_guarding (.of_sameOutcome hout hrel fun _ _ h => h) hhalt).sameOutcome

end Echo
end Op
end VoucherGateway
