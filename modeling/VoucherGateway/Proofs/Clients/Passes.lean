import VoucherGateway.Proofs.Clients.Calls

/-!
# Passes of the reaper — one client after another

A pass aborts queries and closes sessions of many clients, but each item of it is about one of them, and about
none who is halted.

Main statements: a pass leaves a tidy ledger (`tidy_reap`), and of a halted client it only forgets what has
been finished for long enough (`account_reap`).
-/

namespace VoucherGateway

variable {S : Scheme} {α : Type}

open Gateway

/-- An account without what has been finished for a time. -/
def Account.swept (a : Account S) (now retention : Nat) : Account S where
  toFolio := a.toFolio
  sessions := a.sessions.filter fun s => !s.isStale now retention
  queries := a.queries.filter fun q => !q.isStale now retention

/-! ## Halted clients -/

/-- A halted client is refused. -/
theorem Op.run_enter_of_halted {client : S.Party} {g : Gateway S} (h : g.gate.isHalted client = true) :
    ∃ reason, Op.run (enter client) g = (.error (haltedError (S.partyText client) reason), g) := by
  obtain ⟨reason, hreason⟩ := Option.isSome_iff_exists.1 h
  refine ⟨reason, ?_⟩
  rw [Op.run_enter]
  unfold passGate Gate.pass
  rw [Action.run_get_bind, hreason]
  rfl

theorem Op.run_enter_bind_of_halted {client : S.Party} {g : Gateway S} (h : g.gate.isHalted client = true)
    (next : Unit → Op S α) : ∃ e, Op.run (enter client >>= next) g = (.error e, g) := by
  obtain ⟨reason, hrun⟩ := run_enter_of_halted h
  exact ⟨_, by rw [run_bind, hrun]⟩

namespace Gateway

variable {owners : Owners S} {g : Gateway S}

/-- What a pass does about one item: nothing, or something for one client who is not halted. -/
def ActsForOne (owners : Owners S) (f : Gateway S → Gateway S) : Prop :=
  ∀ (g : Gateway S) (h : g.holdings.Tidy owners), f g = g ∨ ∃ client, g.gate.isHalted client = false ∧
    Since client (g.side owners h) False (f g).holdings (f g).world

/-- Aborting is about the client of the query, unless that one is halted. -/
theorem since_abort (h : g.holdings.Tidy owners) (id : QueryId) (forced : Bool) :
    (∃ e, (abort id forced).run g = (.error e, g)) ∨
      ∃ q ∈ g.queries.rows, q.id = id ∧ g.gate.isHalted q.client = false ∧
        Since q.client (g.side owners h) False ((abort id forced).run g).2.holdings
          ((abort id forced).run g).2.world := by
  cases hq : g.queries.find? id with
  | none =>
    refine .inl ⟨.unknownQuery id.text, ?_⟩
    rw [abort, Op.run_findQuery_bind, hq]
  | some q =>
    obtain ⟨hmem, rfl⟩ := QueryTable.mem_of_find? hq
    cases hhalted : g.gate.isHalted q.client with
    | true =>
      obtain ⟨e, hrun⟩ := Op.run_enter_bind_of_halted hhalted fun _ =>
        guarding q.client (perform (abortNow q.id forced))
      refine .inl ⟨e, ?_⟩
      rw [abort, Op.run_findQuery_bind, hq]
      exact hrun
    | false =>
      refine .inr ⟨q, hmem, rfl, hhalted, ?_⟩
      -- beside itself the gateway echoes itself, and so it has kept to the client of the query
      let σ := (g.side owners h).doubled q.client
      have hid : σ.OwnsQuery q.id := Pairing.ownsQuery (σ := σ) hmem rfl
      exact (Pairing.echo_abort hid forced g g .begin).2.left

theorem actsForOne_abort (id : QueryId) : ActsForOne owners fun k => ((abort id true).run k).2 := by
  intro g h
  rcases since_abort h id true with ⟨e, hrun⟩ | ⟨q, -, -, hhalted, hsince⟩
  · exact .inl (congrArg Prod.snd hrun)
  · exact .inr ⟨q.client, hhalted, hsince⟩

/-- Closing is about the client of the session, unless that one is halted. -/
theorem since_closeIdle (h : g.holdings.Tidy owners) (asOf : Nat) (id : SessionId) :
    ((closeIdle asOf id).run g).2 = g ∨
      ∃ s ∈ g.sessions.rows, s.id = id ∧ g.gate.isHalted s.client = false ∧
        Since s.client (g.side owners h) False ((closeIdle asOf id).run g).2.holdings
          ((closeIdle asOf id).run g).2.world := by
  cases hs : g.sessions.find? id with
  | none =>
    refine .inl ?_
    unfold closeIdle
    rw [Op.run_get_bind, hs]
    rfl
  | some s =>
    obtain ⟨hmem, rfl⟩ := SessionTable.mem_of_find? hs
    cases hhalted : g.gate.isHalted s.client with
    | true =>
      obtain ⟨reason, hrefused⟩ := Op.run_enter_of_halted hhalted
      refine .inl ?_
      unfold closeIdle
      rw [Op.run_get_bind, hs]
      dsimp only
      rw [Op.run_bind, Op.run_attempt, hrefused]
      rfl
    | false =>
      let σ := (g.side owners h).doubled s.client
      have hid : σ.OwnsSession s.id := Pairing.ownsSession (σ := σ) hmem rfl
      exact .inr ⟨s, hmem, rfl, hhalted, (Pairing.echoes_closeIdle asOf hid g g .begin).2.late.left⟩

theorem actsForOne_closeIdle (asOf : Nat) (id : SessionId) :
    ActsForOne owners fun k => ((closeIdle asOf id).run k).2 := by
  intro g h
  rcases since_closeIdle h asOf id with hrun | ⟨s, -, -, hhalted, hsince⟩
  · exact .inl hrun
  · exact .inr ⟨s.client, hhalted, hsince⟩

/-! ## The parts of a pass -/

/-- Items that always answer are done one after another. -/
theorem run_countSuccesses {ι : Type} {f : ι → Op S Bool} (hf : ∀ i g, ∃ done, ((f i).run g).1 = .ok done)
    (items : List ι) (g : Gateway S) :
    ∃ n, (countSuccesses f items).run g = (.ok n, items.foldl (fun k i => ((f i).run k).2) g) := by
  induction items generalizing g with
  | nil => exact ⟨0, rfl⟩
  | cons i rest ih =>
    obtain ⟨done, hdone⟩ := hf i g
    obtain ⟨n, hrest⟩ := ih ((f i).run g).2
    have hi : (f i).run g = (.ok done, ((f i).run g).2) := Prod.ext hdone rfl
    refine ⟨if done then n + 1 else n, ?_⟩
    unfold countSuccesses
    rw [Op.run_bind, hi]
    dsimp only
    rw [Op.run_bind, hrest]
    rfl

theorem answers_closeIdle (asOf : Nat) (id : SessionId) (g : Gateway S) :
    ∃ done, ((closeIdle asOf id).run g).1 = .ok done := by
  have h : Writes (fun _ => True) g.ledger (fun _ _ => True) (fun _ _ => False) ((closeIdle asOf id).run g) :=
    writes_closeIdle id trivial rfl
  rcases hr : (closeIdle asOf id).run g with ⟨e | done, k⟩ <;> rw [hr] at h
  · exact h.2.elim
  · exact ⟨done, rfl⟩

/-- The gateway after queries were aborted for being overdue. -/
def abortAll (ids : List QueryId) (g : Gateway S) : Gateway S :=
  ids.foldl (fun k id => ((abort id true).run k).2) g

/-- The gateway after sessions were closed if they were idle. -/
def closeAll (asOf : Nat) (ids : List SessionId) (g : Gateway S) : Gateway S :=
  ids.foldl (fun k id => ((closeIdle asOf id).run k).2) g

/-- The gateway after the last part of a pass. -/
def sweep (asOf : Nat) (g : Gateway S) : Gateway S :=
  { g with
    queries := g.queries.purge asOf g.config.engine.queryRetention
    sessions := g.sessions.purge asOf g.config.engine.queryRetention
    gate := g.gate.prune.2
    metrics := g.metrics.flush }

/-- A pass aborts what is overdue, closes what is idle then, and sweeps. -/
theorem run_reap (asOf : Nat) (g : Gateway S) :
    let aborted := g.abortAll (g.queries.overdue asOf g.config.engine.queryDeadline)
    ((reap asOf).run g).2 =
      (aborted.closeAll asOf (aborted.sessions.idle asOf aborted.config.engine.sessionIdleTimeout)).sweep asOf := by
  obtain ⟨n, haborted⟩ := run_countSuccesses (f := forceAbort (S := S))
    (fun id k => ⟨_, congrArg Prod.fst (run_forceAbort id k)⟩)
    (g.queries.overdue asOf g.config.engine.queryDeadline) g
  have haborts : (fun (k : Gateway S) (id : QueryId) => ((forceAbort id).run k).2) =
      fun k id => ((abort id true).run k).2 :=
    funext fun k => funext fun id => congrArg Prod.snd (run_forceAbort id k)
  rw [haborts] at haborted
  intro aborted
  obtain ⟨m, hclosed⟩ := run_countSuccesses (answers_closeIdle asOf)
    (aborted.sessions.idle asOf aborted.config.engine.sessionIdleTimeout) aborted
  change (countSuccesses forceAbort _).run g = (.ok n, aborted) at haborted
  unfold reap
  rw [Op.run_get_bind, Op.run_bind, haborted]
  dsimp only
  rw [Op.run_get_bind, Op.run_bind, hclosed]
  rfl

theorem run_call_reap (asOf : Nat) (g : Gateway S) :
    ((Call.reap asOf).op.run g).2 = ((reap asOf).run g).2 :=
  congrArg Prod.snd (Op.run_map Reply.reaped (reap asOf) g)

/-! ## Tidiness and halted clients -/

theorem ActsForOne.tidy {f : Gateway S → Gateway S} (hf : ActsForOne owners f) (h : g.holdings.Tidy owners) :
    (f g).holdings.Tidy owners := by
  rcases hf g h with heq | ⟨client, -, hsince⟩
  · rw [heq]
    exact h
  · exact hsince.tidy

theorem tidy_foldl {ι : Type} {f : Gateway S → ι → Gateway S} (hf : ∀ i, ActsForOne owners fun k => f k i)
    (items : List ι) (h : g.holdings.Tidy owners) : (items.foldl f g).holdings.Tidy owners := by
  induction items generalizing g with
  | nil => exact h
  | cons i rest ih => exact ih ((hf i).tidy h)

theorem tidy_sweep (h : g.holdings.Tidy owners) (asOf : Nat) : (g.sweep asOf).holdings.Tidy owners where
  filed := h.filed
  pending := h.pending
  numbered := ⟨h.numbered.nodup.sublist (List.filter_sublist.map _), fun q hq =>
    h.numbered.below q (List.mem_filter.1 hq).1⟩
  queries q hq := h.queries q (List.mem_filter.1 hq).1
  placed q hq := h.placed q (List.mem_filter.1 hq).1
  regular q hq := h.regular q (List.mem_filter.1 hq).1
  below s hs := h.below s (List.mem_filter.1 hs).1
  sessions s hs := h.sessions s (List.mem_filter.1 hs).1

/-- A pass leaves a tidy ledger. -/
theorem tidy_reap (h : g.holdings.Tidy owners) (asOf : Nat) : ((reap asOf).run g).2.holdings.Tidy owners := by
  rw [run_reap]
  exact tidy_sweep (tidy_foldl (actsForOne_closeIdle asOf) _ (tidy_foldl actsForOne_abort _ h)) asOf

/-- A client was passed over. -/
structure PassesOver (owners : Owners S) (client : S.Party) (g k : Gateway S) : Prop where
  tidy : k.holdings.Tidy owners
  account : k.ledger.account client = g.ledger.account client
  terms : k.holdings.terms = g.holdings.terms

theorem PassesOver.config {client : S.Party} {k : Gateway S} (h : PassesOver owners client g k) :
    k.config = g.config :=
  congrArg (·.2.1) h.terms

theorem PassesOver.trans {client : S.Party} {k l : Gateway S} (h : PassesOver owners client g k)
    (h' : PassesOver owners client k l) : PassesOver owners client g l :=
  ⟨h'.tidy, h'.account.trans h.account, h'.terms.trans h.terms⟩

theorem isHalted_of_account {client : S.Party} {k : Gateway S}
    (h : k.ledger.account client = g.ledger.account client) : k.gate.isHalted client = g.gate.isHalted client :=
  congrArg (fun a => a.halted.isSome) h

/-- Halted clients are passed over. -/
theorem passesOver_foldl {ι : Type} {f : Gateway S → ι → Gateway S} (hf : ∀ i, ActsForOne owners fun k => f k i)
    {client : S.Party} (items : List ι) (h : g.holdings.Tidy owners) (hhalted : g.gate.isHalted client = true) :
    PassesOver owners client g (items.foldl f g) := by
  induction items generalizing g with
  | nil => exact ⟨h, rfl, rfl⟩
  | cons i rest ih =>
    have hone : PassesOver owners client g (f g i) := by
      rcases hf i g h with heq | ⟨other, hother, hsince⟩
      · have heq : f g i = g := heq
        rw [heq]
        exact ⟨h, rfl, rfl⟩
      · have hne : client ≠ other := by
          rintro rfl
          rw [hhalted] at hother
          cases hother
        exact ⟨hsince.tidy, hsince.account hne, hsince.terms⟩
    exact hone.trans (ih hone.tidy ((isHalted_of_account hone.account).trans hhalted))

/-- So they are by a pass, but for what it forgets. -/
theorem passesOver_of_aborts {client : S.Party} (h : g.holdings.Tidy owners)
    (hhalted : g.gate.isHalted client = true) (asOf : Nat) (ids : List QueryId) (closing : List SessionId) :
    PassesOver owners client g ((g.abortAll ids).closeAll asOf closing) := by
  have haborted : PassesOver owners client g (g.abortAll ids) := passesOver_foldl actsForOne_abort ids h hhalted
  exact haborted.trans (passesOver_foldl (actsForOne_closeIdle asOf) closing haborted.tidy
    ((isHalted_of_account haborted.account).trans hhalted))

theorem account_sweep (client : S.Party) (asOf : Nat) :
    (g.sweep asOf).ledger.account client =
      (g.ledger.account client).swept asOf g.config.engine.queryRetention :=
  congrArg₂ (Account.mk _) (List.filter_comm _ _ _) (List.filter_comm _ _ _)

/-- Of a halted client a pass only forgets what has been finished for long enough. -/
theorem account_reap (h : g.holdings.Tidy owners) {client : S.Party} (hhalted : g.gate.isHalted client = true)
    (asOf : Nat) :
    ((reap asOf).run g).2.ledger.account client =
      (g.ledger.account client).swept asOf g.config.engine.queryRetention := by
  rw [run_reap, account_sweep]
  have hpassed := passesOver_of_aborts h hhalted asOf (g.queries.overdue asOf g.config.engine.queryDeadline)
    ((g.abortAll (g.queries.overdue asOf g.config.engine.queryDeadline)).sessions.idle asOf
      (g.abortAll (g.queries.overdue asOf g.config.engine.queryDeadline)).config.engine.sessionIdleTimeout)
  rw [hpassed.account, hpassed.config]

/-! ## Numbers -/

/-- The next query number and the next session number. -/
def numbers (g : Gateway S) : Nat × Nat := (g.queries.next, g.sessions.next)

/-- A step that gives no number out. -/
def GivesNone (step : Step S α) : Prop := ∀ g, (step.run g).2.numbers = g.numbers

theorem GivesNone.bind {β : Type} {step : Step S α} {next : α → Step S β} (h : GivesNone step)
    (hn : ∀ a, GivesNone (next a)) : GivesNone (step >>= next) := by
  intro g
  rw [Action.run_bind]
  have hstep := h g
  rcases hr : step.run g with ⟨e | a, k⟩ <;> rw [hr] at hstep
  · exact hstep
  · exact (hn a k).trans hstep

theorem givesNone_findQuery (id : QueryId) : GivesNone (findQuery (S := S) id) := by
  intro g
  unfold findQuery
  rw [Action.run_get_bind]
  cases g.queries.find? id <;> rfl

theorem givesNone_onBalances (act : CostBook → CostStore.Act S α) : GivesNone (onBalances act) := by
  intro g
  unfold onBalances
  rw [Action.run_within]
  rfl

theorem givesNone_abortNow (id : QueryId) (forced : Bool) : GivesNone (abortNow (S := S) id forced) := by
  have release : ∀ q : Query S, GivesNone (releaseEstimate q) := by
    intro q g
    unfold releaseEstimate
    split
    · exact (givesNone_onBalances _).bind (fun _ _ => rfl) g
    · rfl
  refine (givesNone_findQuery id).bind fun q => ?_
  split
  · exact fun _ => rfl
  · exact fun _ => rfl
  · refine (release q).bind fun _ g => ?_
    rw [Action.run_get_bind]
    refine (givesNone_findQuery q.id).bind (fun current k => ?_) g
    dsimp only
    cases Query.moveTo { current with forced := forced } .aborted g.now <;> rfl

theorem numbers_enter (client : S.Party) (g : Gateway S) : ((enter client).run g).2.numbers = g.numbers := by
  rw [Op.run_enter]
  unfold passGate
  rw [Action.run_get_bind]
  cases g.gate.pass client <;> rfl

theorem numbers_guarding {client : S.Party} {op : Op S α} (h : (op.run g).2.numbers = g.numbers) :
    ((guarding client op).run g).2.numbers = g.numbers := by
  rw [Op.run_guarding]
  rcases hr : op.run g with ⟨e | a, k⟩ <;> rw [hr] at h
  · refine Eq.trans ?_ h
    dsimp only
    unfold haltFor
    split <;> rfl
  · exact h

/-- Aborting gives no number out. -/
theorem numbers_abort (id : QueryId) (forced : Bool) (g : Gateway S) :
    ((abort id forced).run g).2.numbers = g.numbers := by
  rw [abort, Op.run_findQuery_bind]
  cases g.queries.find? id with
  | none => rfl
  | some q =>
    have hentered := numbers_enter q.client g
    dsimp only
    rw [Op.run_bind]
    rcases hr : (enter q.client).run g with ⟨e | _, k⟩ <;> rw [hr] at hentered
    · exact hentered
    · have haborted : (Op.run (perform (abortNow id forced)) k).2.numbers = k.numbers :=
        givesNone_abortNow id forced k
      exact (numbers_guarding haborted).trans hentered

/-- Nor does closing. -/
theorem numbers_closeIdle (asOf : Nat) (id : SessionId) (g : Gateway S) :
    ((closeIdle asOf id).run g).2.numbers = g.numbers := by
  unfold closeIdle
  rw [Op.run_get_bind]
  cases g.sessions.find? id with
  | none => rfl
  | some s =>
    have hentered := numbers_enter s.client g
    dsimp only
    rw [Op.run_bind, Op.run_attempt]
    rcases hr : (enter s.client).run g with ⟨e | _, k⟩ <;> rw [hr] at hentered
    · exact hentered
    · refine Eq.trans ?_ hentered
      dsimp only
      rw [Op.run_get_bind]
      split <;> rfl

/-- A pass gives no number out. -/
theorem numbers_reap (asOf : Nat) (g : Gateway S) : ((reap asOf).run g).2.numbers = g.numbers := by
  have none : ∀ {ι : Type} {f : Gateway S → ι → Gateway S}, (∀ g i, (f g i).numbers = g.numbers) →
      ∀ (items : List ι) (g : Gateway S), (items.foldl f g).numbers = g.numbers := by
    intro ι f hf items
    induction items with
    | nil => exact fun _ => rfl
    | cons i rest ih => exact fun g => (ih (f g i)).trans (hf g i)
  rw [run_reap]
  exact (none (fun g id => numbers_closeIdle asOf id g) _ _).trans (none (fun g id => numbers_abort id true g) _ g)

/-! ## Any call -/

/-- What a call leaves in any case: a tidy ledger, and no number is taken back. -/
theorem orderly_call (h : g.holdings.Tidy owners) (call : Call S) :
    (∃ owners, (call.op.run g).2.holdings.Tidy owners) ∧
      g.queries.next ≤ (call.op.run g).2.queries.next ∧ g.sessions.next ≤ (call.op.run g).2.sessions.next := by
  by_cases hreap : ∃ asOf, call = .reap asOf
  · obtain ⟨asOf, rfl⟩ := hreap
    have hnumbers := numbers_reap asOf g
    rw [run_call_reap]
    exact ⟨⟨owners, tidy_reap h asOf⟩, Nat.le_of_eq (congrArg Prod.fst hnumbers).symm,
      Nat.le_of_eq (congrArg Prod.snd hnumbers).symm⟩
  · cases hs : g.ledger.subject? call with
    | none =>
      obtain ⟨e, hstray, -⟩ := Call.stray_of_subject hs fun asOf hasOf => hreap ⟨asOf, hasOf⟩
      rw [hstray.run hs]
      exact ⟨⟨owners, h⟩, Nat.le_refl _, Nat.le_refl _⟩
    | some client =>
      have hsince := since_call h hs
      exact ⟨⟨_, hsince.tidy⟩, hsince.queries, hsince.sessions⟩

end Gateway
end VoucherGateway
