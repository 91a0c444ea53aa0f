import VoucherGateway.Proofs.Ledger.Settling

/-!
# Queries in the ledger — what settling and aborting write

The first attempt to settle a query fixes its cost; every attempt then goes on along the way to the receipt.
Only the charge can fail for a reason other than an outage: the cost may not fit (`Overdrawn`), and then the
client is halted.
-/

namespace VoucherGateway

variable {S : Scheme}

/-- The entries by which a query is aborted. -/
def Entry.Aborts (id : QueryId) (forced : Bool) : Entry S → Prop
  | .released q => q.id = id
  | .aborted q f _ => q.id = id ∧ f = forced
  | _ => False

/-- The cost of one of the client's queries does not fit on top of the unmarked cost. -/
def Ledger.Overdrawn (L : Ledger S) (client : S.Party) (e : Error) : Prop :=
  ∃ q ∈ L.queries.rows, ∃ cost, q.client = client ∧ q.actual = some cost ∧ q.charged = false ∧
    Atoms.top.toNat < (L.unmarkedOf client).toNat + cost.toNat ∧
    e = .violation (.overflow .unmarked (S.partyText client) (L.unmarkedOf client) cost)

/-- The query of a number has a cost, unless it is finished. -/
def Ledger.Priced (L : Ledger S) (id : QueryId) : Prop :=
  ∀ q ∈ L.queries.rows, q.id = id → q.state = .locked → q.actual.isSome = true

/-- What a caller is told of a query is the receipt on record, unless the counters made the call panic. -/
def Ledger.Receipted (L : Ledger S) (c : Counters) (id : QueryId) (answer : Completion (Receipt S)) : Prop :=
  ∃ q ∈ L.queries.rows, q.id = id ∧
    ∃ receipt, q.receipt = some receipt ∧ c.Tells (.querySettled receipt.actual) receipt answer

/-- Cost once fixed stays fixed. -/
theorem Ledger.Trail.priced {client : S.Party} {id : QueryId} {cost : Atoms} {L M : Ledger S} {q : Query S}
    (ht : Ledger.Trail (Entry.Settles client id cost) L M) (hL : L.Sound) (hq : q ∈ L.queries.rows)
    (hact : q.actual.isSome = true) : M.Priced q.id := by
  have hkeep : ∀ (e : Entry S) x, Entry.Settles client id cost e → e.keeps x = true := fun e x he =>
    Entry.keeps_of_not_purged (by rintro _ _ rfl; cases he) x
  obtain ⟨q', hq', hb⟩ := Ledger.Trail.goes_on ht hL.numbered hkeep hq
  intro x hx hid _
  obtain rfl := (hL.trail ht).same hx hq' (hid.trans hb.id.symm)
  rcases hb.actual with hnone | hsame
  · rw [hnone] at hact
    cases hact
  · rw [hsame]
    exact hact

/-- Whether the estimate of a query is unlocked although the query is not finished. -/
def Query.adrift (q : Query S) : Bool := decide (q.state = .locked) && q.released

theorem Query.adrift_iff {q : Query S} : q.adrift = true ↔ q.state = .locked ∧ q.released = true := by
  simp [adrift]

namespace Ledger

variable {L M N : Ledger S}

/-- No query comes to be adrift from one ledger to another. -/
def Spares (L M : Ledger S) : Prop :=
  ∀ q' ∈ M.queries.rows, q'.adrift = true → ∃ q ∈ L.queries.rows, q.adrift = true ∧ q.Becomes q'

theorem Spares.refl (L : Ledger S) : L.Spares L := fun q hq hadrift => ⟨q, hq, hadrift, .refl q⟩

theorem Spares.trans (h : L.Spares M) (h' : M.Spares N) : L.Spares N := by
  intro q₂ hq₂ hadrift₂
  obtain ⟨q₁, hq₁, hadrift₁, hb₁⟩ := h' q₂ hq₂ hadrift₂
  obtain ⟨q₀, hq₀, hadrift₀, hb₀⟩ := h q₁ hq₁ hadrift₁
  exact ⟨q₀, hq₀, hadrift₀, hb₀.trans hb₁⟩

/-- A query that is adrift was so before, if its estimate could not be unlocked on the way. -/
theorem Trail.adrift {allowed : Entry S → Prop} (ht : Trail allowed L M) (hL : L.Sound) {q' : Query S}
    (hq' : q' ∈ M.queries.rows) (hadrift : q'.adrift = true)
    (hne : ∀ q : Query S, q.id = q'.id → ¬ allowed (.released q)) :
    ∃ q ∈ L.queries.rows, q.adrift = true ∧ q.Becomes q' := by
  have hstep : ∀ {N : Ledger S} {e : Entry S} {x : Query S}, allowed e → N.Allows e → N.queries.Numbered →
      x ∈ N.queries.rows → (∀ q : Query S, q.id = x.id → ¬ allowed (.released q)) →
      (e.onRow x).adrift = true → x.adrift = true := by
    intro N e x he ha hn hx hlocks hy
    have hturns := turns_onRow hn ha hx
    generalize e.onRow x = y at hturns hy
    cases hturns with
    | released => exact absurd he (hlocks x rfl)
    | settled => exact absurd (Query.adrift_iff.1 hy).1 nofun
    | aborted => exact absurd (Query.adrift_iff.1 hy).1 nofun
    | _ => exact hy
  rcases Trail.origin
      (P := fun x y => (∀ q : Query S, q.id = x.id → ¬ allowed (.released q)) → y.adrift = true →
        x.adrift = true)
      (fun _ _ h => h) (fun hxy _ h h' hlocks hz => h hlocks (h' (hxy.id ▸ hlocks) hz)) hstep ht
      hL.numbered hq'
    with ⟨q, hq, hb, hback⟩ | ⟨_, q, -, ha, -, hb, hback⟩
  · exact ⟨q, hq, hback (hb.id ▸ hne) hadrift, hb⟩
  · -- the estimate of a new query is locked
    have hrel := (Query.adrift_iff.1 (hback (hb.id ▸ hne) hadrift)).2
    exact absurd (hrel.symm.trans ha.2.2.2.1) nofun

/-- The ledger when a query is aborted at a time. -/
def aborting (L : Ledger S) (q : Query S) (forced : Bool) (time : Nat) : Ledger S :=
  (L.unlocking q).post (.aborted { q with released := true } forced time)

theorem trail_aborting {q : Query S} (hL : L.Sound) (hq : q ∈ L.queries.rows) (hst : q.state = .locked)
    (forced : Bool) (time : Nat) : Trail (Entry.Aborts q.id forced) L (L.aborting q forced time) := by
  obtain ⟨-, hq'⟩ := way_unlocking hL hq hst
  have ha : (L.unlocking q).Allows (.aborted { q with released := true } forced time) := ⟨hq', hst, rfl⟩
  have ht : Trail (Entry.Aborts q.id forced) L (L.unlocking q) := by
    unfold unlocking
    cases hrel : q.released with
    | true => exact .refl
    | false =>
      have ha : L.Allows (.released q) := ⟨hq, hst, hrel⟩
      exact .post (show Entry.Aborts q.id forced (.released q) from rfl) ha
  have he : Entry.Aborts q.id forced (.aborted { q with released := true } forced time) := ⟨rfl, rfl⟩
  exact ht.tail ⟨_, he, ha, rfl⟩

theorem Trail.spares {allowed : Entry S → Prop} (ht : Trail allowed L M) (hL : L.Sound)
    (hnone : ∀ q : Query S, ¬ allowed (.released q)) : L.Spares M := fun _ hq' hadrift =>
  ht.adrift hL hq' hadrift fun q _ => hnone q

end Ledger

namespace Gateway

variable {g : Gateway S} {L : Ledger S} {allowed : Entry S → Prop} {q : Query S}

/-! ## Settling -/

/-- A query whose cost is fixed is settled, or stays as far as the attempt has got. -/
theorem writes_finishSettling_of_priced {cost : Atoms} (c : Atoms) (usage : Usage) (hL : L.Sound)
    (hg : g.ledger = L) (hq : q ∈ L.queries.rows) (hst : q.state = .locked) (hact : q.actual = some cost) :
    Writes (Entry.Settles q.client q.id c) L
      (fun answer M => M.Receipted L.counters q.id answer)
      (fun e M => e.IsOutage ∨ M.Overdrawn q.client e) ((finishSettling q usage).run g) := by
  refine (ends_finishSettling usage hL hg hq hst hact).mono ?_ ?_
  · rintro answer g' ⟨_, ⟨M, q', time, way, hid, harrived, rfl, hpost⟩, rfl⟩
    rw [hpost]
    have hal : Entry.Settles q.client q.id c (.settled q' (M.receipt q' cost) time) := hid
    refine ⟨(way.trail hq rfl c).tail ⟨_, hal, harrived.allows time, rfl⟩, ?_⟩
    exact ⟨_, QueryTable.mem_update harrived.row _, hid, _, rfl, L.counters.tells_told _ _⟩
  · rintro e g' ⟨way, hout | ⟨q', hid, hstuck, rfl⟩⟩
    · exact ⟨way.trail hq rfl c, .inl hout⟩
    · obtain ⟨_, _, _, hmem⟩ := way.row hq rfl
      obtain rfl := (way.sound hL).same hstuck.row hmem hid
      exact ⟨way.trail hq rfl c,
        .inr ⟨_, hstuck.row, cost, rfl, hstuck.priced, hstuck.uncharged, hstuck.exceeds, rfl⟩⟩

/-- The first attempt fixes the cost, and goes on as any later one. -/
theorem run_finishSettling_of_unpriced (usage : Usage) (hact : q.actual = none) :
    (finishSettling q usage).run g =
      (finishSettling { q with actual := some (g.config.pricing.cost usage) } usage).run
        { g with queries := g.queries.update q.id fun x =>
          { x with actual := some (g.config.pricing.cost usage) } } := by
  unfold finishSettling fixCost
  rw [hact]
  rfl

/-- A query that is not finished is settled, or stays as far as the attempt has got. -/
theorem writes_finishSettling (usage : Usage) (hL : L.Sound) (hg : g.ledger = L)
    (hq : q ∈ L.queries.rows) (hst : q.state = .locked) :
    Writes (Entry.Settles q.client q.id (L.config.pricing.cost usage)) L
      (fun answer M => M.Receipted L.counters q.id answer ∧ M.Priced q.id)
      (fun e M => (e.IsOutage ∨ M.Overdrawn q.client e) ∧ M.Priced q.id)
      ((finishSettling q usage).run g) := by
  have later : ∀ {q : Query S} {M : Ledger S} {g' : Gateway S} {cost c : Atoms}, M.Sound → g'.ledger = M →
      q ∈ M.queries.rows → q.state = .locked → q.actual = some cost →
      Writes (Entry.Settles q.client q.id c) M
        (fun answer N => N.Receipted M.counters q.id answer ∧ N.Priced q.id)
        (fun e M => (e.IsOutage ∨ M.Overdrawn q.client e) ∧ M.Priced q.id)
        ((finishSettling q usage).run g') := by
    intro q M g' cost c hM hg' hq hst hact
    exact (writes_finishSettling_of_priced c usage hM hg' hq hst hact).mono
      (fun _ _ ht h => ⟨h, Ledger.Trail.priced ht hM hq (by simp [hact])⟩)
      fun _ _ ht h => ⟨h, Ledger.Trail.priced ht hM hq (by simp [hact])⟩
  cases hact : q.actual with
  | some cost => exact later hL hg hq hst hact
  | none =>
    subst hg
    have hal : Entry.Settles q.client q.id (g.ledger.config.pricing.cost usage)
        (.priced q (g.ledger.config.pricing.cost usage)) := ⟨rfl, rfl⟩
    have ha : g.ledger.Allows (.priced q (g.ledger.config.pricing.cost usage)) := ⟨hq, hst, hact⟩
    -- from here on the query has a cost, and the lemma for such queries applies
    rw [run_finishSettling_of_unpriced usage hact]
    refine Writes.after (.post hal ha) ?_
    exact later (hL.post ha) rfl (QueryTable.mem_update hq fun x =>
      { x with actual := some (g.config.pricing.cost usage) }) hst rfl

/-- A query that is finished stays as it is; any other has a cost from then on. -/
theorem writes_settleNow (usage : Usage) (hL : L.Sound) (hg : g.ledger = L) (hq : q ∈ L.queries.rows) :
    Writes (Entry.Settles q.client q.id (L.config.pricing.cost usage)) L
      (fun answer M => M.Receipted L.counters q.id answer ∧ M.Priced q.id)
      (fun e M => (e.isFatal = false ∨ M.Overdrawn q.client e) ∧ M.Priced q.id)
      ((settleNow q.id usage).run g) := by
  have finished : q.state ≠ .locked → L.Priced q.id := by
    intro hst x hx hid hlocked
    obtain rfl := hL.same hx hq hid
    exact absurd hlocked hst
  have unfinished : q.state = .locked → ∀ g', g'.ledger = L →
      Writes (Entry.Settles q.client q.id (L.config.pricing.cost usage)) L
        (fun answer M => M.Receipted L.counters q.id answer ∧ M.Priced q.id)
        (fun e M => (e.isFatal = false ∨ M.Overdrawn q.client e) ∧ M.Priced q.id)
        ((finishSettling q usage).run g') := by
    intro hst g' hg'
    exact (writes_finishSettling usage hL hg' hq hst).mono (fun _ _ _ h => h)
      fun _ _ _ h => ⟨h.1.imp_left Error.IsOutage.not_fatal, h.2⟩
  have hs := hL.rows q hq
  unfold settleNow
  rw [Action.run_bind_of_ok (run_findQuery hL hg hq)]
  cases hst : q.state with
  | pending => exact absurd hst hs.begun
  | locked => exact unfinished hst g hg
  | settled =>
    cases hrec : q.receipt with
    | some receipt => exact Writes.of_pure hg ⟨⟨q, hq, rfl, receipt, hrec, .inl rfl⟩, finished (by simp [hst])⟩
    | none =>
      have := hs.receipt_iff.2 hst
      rw [hrec] at this
      cases this
  | aborted => exact Writes.of_throw hg ⟨.inl rfl, finished (by simp [hst])⟩

/-- Settling is refused for a halted client.  Otherwise the query has a cost from then on or is finished, and
if a cost does not fit, its client is halted.  What the caller is told is on record. -/
theorem ends_settleQuery (id : QueryId) (usage : Usage) (hL : L.Sound) (hg : g.ledger = L) :
    Ends
      (fun answer g' =>
        (∃ client, Ledger.Trail (Entry.Settles client id (L.config.pricing.cost usage)) L g'.ledger) ∧
          g'.ledger.Priced id ∧ g'.ledger.Receipted L.counters id answer)
      (fun e g' => (g'.ledger = L ∧ ∃ detail, e = .clientHalted detail) ∨
        ∃ client N, Ledger.Trail (Entry.Settles client id (L.config.pricing.cost usage)) L N ∧ N.Priced id ∧
          (e.isFatal = false ∧ g'.ledger = N ∨
            N.Overdrawn client e ∧ g'.ledger = N.post (.halted client e.message)))
      ((settleQuery id usage).run g) := by
  unfold settleQuery
  refine Op.ends_bind ((ends_findQuery id hg).mono_error ?_) ?_
  · rintro e g' ⟨hg', hnone, he⟩
    have hpriced : L.Priced id := by
      rintro x hx rfl
      rw [hL.numbered.find? hx] at hnone
      cases hnone
    exact .inr ⟨L.vendor, L, .refl, hpriced, .inl ⟨he, hg'⟩⟩
  rintro q g₁ ⟨hg₁, hfind⟩
  obtain ⟨hq, rfl⟩ := QueryTable.mem_of_find? hfind
  refine Op.ends_bind ((ends_enter q.client hg₁).mono_error fun _ _ h => .inl ⟨h.1, h.2.2⟩) ?_
  rintro _ g₂ ⟨hg₂, -⟩
  have hsettle := writes_settleNow usage hL hg₂ hq
  rw [Op.run_guarding, Op.run_perform]
  rcases hr : (settleNow q.id usage).run g₂ with ⟨e | answer, g₃⟩ <;> rw [hr] at hsettle
  · obtain ⟨ht, he, hpriced⟩ := hsettle
    refine .inr ⟨q.client, g₃.ledger, ht, hpriced, ?_⟩
    -- the guard halts for fatal errors only, and an overdraft is the only one
    rcases he with hplain | hover
    · exact .inl ⟨hplain, by simp [haltFor, hplain]⟩
    · refine .inr ⟨hover, ?_⟩
      obtain ⟨_, _, _, _, _, _, _, rfl⟩ := hover
      rfl
  · exact ⟨⟨q.client, hsettle.1⟩, hsettle.2.2, hsettle.2.1⟩

/-! ## Aborting -/

/-- A query that is not finished is aborted, or a store does not answer. -/
theorem ends_finishAborting (forced : Bool) (hL : L.Sound) (hg : g.ledger = L) (hq : q ∈ L.queries.rows)
    (hst : q.state = .locked) :
    Ends (fun _ g' => g'.ledger = L.aborting q forced g'.now) (fun e g' => g'.ledger = L ∧ e.IsOutage)
      ((finishAborting q forced).run g) := by
  obtain ⟨way, hq'⟩ := Ledger.way_unlocking hL hq hst
  unfold finishAborting
  refine Action.ends_bind (ends_releaseEstimate hL hg hq hst) ?_
  intro _ g' hg'
  let aborted : Query S := { q with released := true, forced := forced }
  have hmove : aborted.moveTo .aborted g'.now =
      .ok { aborted with state := .aborted, finishedAt := some g'.now } :=
    Query.moveTo_of_locked aborted hst rfl _
  rw [Action.run_get_bind, Action.run_bind_of_ok (run_findQuery (way.sound hL) hg' hq')]
  dsimp only
  rw [hmove]
  unfold Ledger.aborting
  rw [← hg']
  exact ledger_count _ _

/-- A query that is not finished is aborted, or nothing happens. -/
theorem writes_finishAborting {forced : Bool} (hal : ∀ e, Entry.Aborts q.id forced e → allowed e)
    (hL : L.Sound) (hg : g.ledger = L) (hq : q ∈ L.queries.rows) (hst : q.state = .locked) :
    Writes allowed L (fun _ M => ∃ q' ∈ M.queries.rows, q'.id = q.id ∧ q'.state = .aborted)
      (fun e M => M = L ∧ e.isFatal = false) ((finishAborting q forced).run g) := by
  refine (ends_finishAborting forced hL hg hq hst).mono ?_ ?_
  · intro _ g' hg'
    obtain ⟨-, hq'⟩ := Ledger.way_unlocking hL hq hst
    rw [hg']
    exact ⟨(Ledger.trail_aborting hL hq hst forced g'.now).widen hal, _, QueryTable.mem_update hq' _, rfl, rfl⟩
  · rintro e g' ⟨rfl, hout⟩
    exact ⟨.refl, rfl, hout.not_fatal⟩

theorem writes_abortNow {forced : Bool} (hal : ∀ e, Entry.Aborts q.id forced e → allowed e)
    (hL : L.Sound) (hg : g.ledger = L) (hq : q ∈ L.queries.rows) :
    Writes allowed L (fun _ M => ∃ q' ∈ M.queries.rows, q'.id = q.id ∧ q'.state = .aborted)
      (fun e M => M = L ∧ e.isFatal = false) ((abortNow q.id forced).run g) := by
  unfold abortNow
  rw [Action.run_bind_of_ok (run_findQuery hL hg hq)]
  cases hst : q.state with
  | pending => exact absurd hst (hL.rows q hq).begun
  | locked => exact writes_finishAborting hal hL hg hq hst
  | settled => exact Writes.of_throw hg ⟨rfl, rfl⟩
  | aborted => exact Writes.of_pure hg ⟨q, hq, rfl, hst⟩

/-- An abort that fails has not happened. -/
theorem writes_abort {id : QueryId} {forced : Bool} (hal : ∀ e, Entry.Aborts id forced e → allowed e)
    (hL : L.Sound) (hg : g.ledger = L) :
    Writes allowed L (fun _ M => ∃ q ∈ M.queries.rows, q.id = id ∧ q.state = .aborted)
      (fun e M => M = L ∧ (e.isFatal = false ∨ ∃ detail, e = .clientHalted detail))
      ((abort id forced).run g) := by
  unfold abort
  refine Writes.op_step (ends_findQuery id hg) .refl (fun _ h => ⟨rfl, .inl h.2⟩) ?_
  intro q g₁ hg₁ hfind
  obtain ⟨hq, rfl⟩ := QueryTable.mem_of_find? hfind
  refine Writes.op_step (ends_enter q.client hg₁) .refl (fun _ h => ⟨rfl, .inr h.2⟩) ?_
  intro _ g₂ hg₂ _
  have hnow := writes_abortNow hal hL hg₂ hq
  rw [← Op.run_perform] at hnow
  exact (Writes.guarding hnow fun _ _ h => h.2).mono (fun _ _ _ h => h) fun _ _ _ h => ⟨h.1, .inl h.2⟩

/-- An abort is done entirely or not at all. -/
theorem spares_abort (id : QueryId) (forced : Bool) (hL : L.Sound) (hg : g.ledger = L) :
    L.Spares ((abort id forced).run g).2.ledger := by
  have h := writes_abort (fun e (h : Entry.Aborts id forced e) => h) hL hg
  rcases hr : (abort id forced).run g with ⟨e | _, g'⟩ <;> rw [hr] at h
  · rw [h.2.1]
    exact .refl L
  · obtain ⟨ht, q, hq, rfl, hst⟩ := h
    intro q' hq' hadrift
    refine ht.adrift hL hq' hadrift fun r hid he => ?_
    obtain rfl := (hL.trail ht).same hq' hq (hid.symm.trans he)
    exact absurd ((Query.adrift_iff.1 hadrift).1.symm.trans hst) nofun

end Gateway
end VoucherGateway
