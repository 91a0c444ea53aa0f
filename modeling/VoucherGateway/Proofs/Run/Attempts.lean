import VoucherGateway.Proofs.Run.Basic

/-!
# Attempts — what one attempt to settle a query comes to

An attempt fixes the cost of a query that has none, and goes along the way to the receipt.  It settles the
query, or breaks off on the way because a store does not answer, or gets stuck because the cost does not fit;
and a query that is not locked it leaves alone.
-/

namespace VoucherGateway

variable {S : Scheme}

namespace Ledger

variable {L M N : Ledger S} {q : Query S}

/-- The ledger when the cost of a query is fixed. -/
def pricing (L : Ledger S) (q : Query S) (cost : Atoms) : Ledger S :=
  if q.actual.isSome then L else L.post (.priced q cost)

theorem Sound.pricing (hL : L.Sound) (hq : q ∈ L.queries.rows) (hst : q.state = .locked) (cost : Atoms) :
    (L.pricing q cost).Sound := by
  unfold Ledger.pricing
  split
  · exact hL
  · next hact =>
    have ha : L.Allows (.priced q cost) := ⟨hq, hst, by simpa using hact⟩
    exact hL.post ha

theorem mem_pricing (hq : q ∈ L.queries.rows) (cost : Atoms) :
    { q with actual := some (q.actual.getD cost) } ∈ (L.pricing q (q.actual.getD cost)).queries.rows := by
  unfold Ledger.pricing
  cases hact : q.actual with
  | some c =>
    have hsame : { q with actual := some c } = q := by rw [← hact]
    simpa [hsame] using hq
  | none => exact QueryTable.mem_update hq fun x => { x with actual := some cost }

theorem halted_pricing (cost : Atoms) : (L.pricing q cost).halted = L.halted := by
  unfold Ledger.pricing
  split <;> rfl

theorem counters_pricing (cost : Atoms) : (L.pricing q cost).counters = L.counters := by
  unfold Ledger.pricing
  split <;> rfl

theorem row_pricing (hq : q ∈ L.queries.rows) (cost : Atoms) :
    ∃ actual, { q with actual := actual } ∈ (L.pricing q cost).queries.rows := by
  unfold pricing
  split
  · exact ⟨q.actual, hq⟩
  · exact ⟨some cost, QueryTable.mem_update hq fun x => { x with actual := some cost }⟩

theorem trail_pricing (hq : q ∈ L.queries.rows) (hst : q.state = .locked) (cost : Atoms) :
    Trail (Entry.Settles q.client q.id cost) L (L.pricing q cost) := by
  unfold pricing
  split
  · exact .refl
  · next hact =>
    have he : Entry.Settles q.client q.id cost (.priced q cost) := ⟨rfl, rfl⟩
    have ha : L.Allows (.priced q cost) := ⟨hq, hst, by simpa using hact⟩
    exact .post he ha

/-- Nothing is counted before the receipt is written. -/
theorem Way.counters_pricing {cost : Atoms} (h : Way q.id (L.pricing q cost) M) : M.counters = L.counters :=
  h.counters.trans (Ledger.counters_pricing cost)

/-- An attempt to settle a query consists of entries by which it is settled. -/
theorem Way.trail_pricing {cost : Atoms} (h : Way q.id (L.pricing q cost) M) (hq : q ∈ L.queries.rows)
    (hst : q.state = .locked) : Trail (Entry.Settles q.client q.id cost) L M := by
  obtain ⟨actual, hq'⟩ := row_pricing hq cost
  exact (Ledger.trail_pricing hq hst cost).trans (h.trail hq' rfl cost)

end Ledger

namespace Gateway

variable {g : Gateway S} {L : Ledger S} {q : Query S}

/-- The first attempt fixes the cost, and a later one keeps it. -/
theorem ends_finishSettling_of_locked (usage : Usage) (hL : L.Sound) (hg : g.ledger = L)
    (hq : q ∈ L.queries.rows) (hst : q.state = .locked) {cost : Atoms}
    (hcost : cost = q.actual.getD (L.config.pricing.cost usage)) :
    Ends (fun answer g' => (L.pricing q cost).Answered q.id cost answer g'.ledger)
      (fun e g' => (L.pricing q cost).BrokeOff q.id cost e g'.ledger) ((finishSettling q usage).run g) := by
  unfold Ledger.pricing
  cases hact : q.actual with
  | some c =>
    obtain rfl : cost = c := by rw [hcost, hact]; rfl
    exact ends_finishSettling usage hL hg hq hst hact
  | none =>
    subst hg
    obtain rfl : cost = g.config.pricing.cost usage := by rw [hcost, hact]; rfl
    have ha : g.ledger.Allows (.priced q (g.config.pricing.cost usage)) := ⟨hq, hst, hact⟩
    rw [run_finishSettling_of_unpriced usage hact]
    exact ends_finishSettling (q := { q with actual := some (g.config.pricing.cost usage) }) usage
      (hL.post ha) rfl (QueryTable.mem_update hq fun x =>
        { x with actual := some (g.config.pricing.cost usage) }) hst rfl

/-- How an attempt to settle a query fails: a store does not answer, or the cost does not fit. -/
def Fails (L : Ledger S) (id : QueryId) (cost : Atoms) (e : Error) (g : Gateway S) : Prop :=
  e.IsOutage ∧ Ledger.Way id L g.ledger ∨
    (∃ v, e = .violation v) ∧ ∃ N q, q.id = id ∧ Ledger.Way id L N ∧ N.Stuck q cost ∧
      g.ledger = N.post (.halted q.client e.message) ∧
      e = .violation (.overflow .unmarked (S.partyText q.client) (N.unmarkedOf q.client) cost)

theorem Fails.after {id : QueryId} {cost : Atoms} {e : Error} {M : Ledger S} (h : Fails M id cost e g)
    (hM : Ledger.Way id L M) : Fails L id cost e g := by
  rcases h with ⟨hout, way⟩ | ⟨hv, N, q, hid, way, hstuck⟩
  · exact .inl ⟨hout, hM.trans way⟩
  · exact .inr ⟨hv, N, q, hid, hM.trans way, hstuck⟩

theorem ends_settleQuery_of_locked (usage : Usage) (hL : L.Sound) (hg : g.ledger = L)
    (hq : q ∈ L.queries.rows) (hst : q.state = .locked) {cost : Atoms}
    (hcost : cost = q.actual.getD (L.config.pricing.cost usage)) :
    Ends
      (fun answer g' => L.halted.get? q.client = none ∧
        (L.pricing q cost).Answered q.id cost answer g'.ledger)
      (fun e g' => g'.ledger = L ∧ L.halted.get? q.client ≠ none ∨ Fails (L.pricing q cost) q.id cost e g')
      ((settleQuery q.id usage).run g) := by
  have hfind : ∀ {g' : Gateway S}, g'.ledger = L → (perform (findQuery q.id)).run g' = (.ok q, g') :=
    fun hg' => run_findQuery hL hg' hq
  unfold settleQuery
  rw [Op.run_bind, hfind hg]
  refine Op.ends_bind ((ends_enter q.client hg).mono_error fun _ _ h => .inl ⟨h.1, h.2.1⟩) ?_
  rintro _ g₁ ⟨hg₁, hrun⟩
  have hnow : (settleNow q.id usage).run g₁ = (finishSettling q usage).run g₁ := by
    unfold settleNow
    rw [Action.run_bind_of_ok (run_findQuery hL hg₁ hq), hst]
  have h := ends_finishSettling_of_locked usage hL hg₁ hq hst hcost
  rw [Op.run_guarding, Op.run_perform, hnow]
  rcases hr : (finishSettling q usage).run g₁ with ⟨e | answer, g₂⟩ <;> rw [hr] at h
  · obtain ⟨way, hout | ⟨q', hid, hstuck, rfl⟩⟩ := h
    · have hsame : haltFor q.client e g₂ = g₂ := by simp [haltFor, hout.not_fatal]
      dsimp only
      rw [hsame]
      exact .inr (.inl ⟨hout, way⟩)
    · obtain ⟨_, hrow⟩ := Ledger.row_pricing hq cost
      obtain ⟨_, _, _, hmem⟩ := way.row hrow rfl
      have hclient : q'.client = q.client := by
        rw [(way.sound (hL.pricing hq hst cost)).same hstuck.row hmem hid]
      refine .inr (.inr ⟨⟨_, rfl⟩, _, q', hid, way, hstuck, ?_, rfl⟩)
      rw [hclient]
      rfl
  · exact ⟨hrun, h⟩

/-- A query that is not locked is not settled.  Its receipt may be answered, and nothing else happens. -/
theorem ends_settleQuery_of_final {id : QueryId} (usage : Usage) (hL : L.Sound) (hg : g.ledger = L)
    (hno : ∀ q ∈ L.queries.rows, q.id = id → q.state ≠ .locked) :
    Ends (fun answer g' => g'.ledger = L ∧ ∃ receipt, answer = .returned receipt) (fun _ g' => g'.ledger = L)
      ((settleQuery id usage).run g) := by
  unfold settleQuery
  refine Op.ends_bind ((ends_findQuery id hg).mono_error fun _ _ h => h.1) ?_
  rintro q g₁ ⟨hg₁, hfind⟩
  obtain ⟨hq, rfl⟩ := QueryTable.mem_of_find? hfind
  refine Op.ends_bind ((ends_enter q.client hg₁).mono_error fun _ _ h => h.1) ?_
  rintro _ g₂ ⟨hg₂, -⟩
  have hnow : Ends (fun answer g' => g'.ledger = L ∧ ∃ receipt, answer = .returned receipt)
      (fun e g' => g'.ledger = L ∧ e.isFatal = false) ((settleNow q.id usage).run g₂) := by
    unfold settleNow
    rw [Action.run_bind_of_ok (run_findQuery hL hg₂ hq)]
    cases hst : q.state with
    | pending => exact absurd hst (hL.rows q hq).begun
    | locked => exact absurd hst (hno q hq rfl)
    | settled =>
      obtain ⟨receipt, hreceipt⟩ := Option.isSome_iff_exists.1 ((hL.rows q hq).receipt_iff.2 hst)
      rw [hreceipt]
      exact ⟨hg₂, receipt, rfl⟩
    | aborted =>
      exact ⟨hg₂, rfl⟩
  rw [Op.run_guarding, Op.run_perform]
  rcases hr : (settleNow q.id usage).run g₂ with ⟨e | answer, g₃⟩ <;> rw [hr] at hnow
  · have hsame : haltFor q.client e g₃ = g₃ := by simp [haltFor, hnow.2]
    dsimp only
    rw [hsame]
    exact hnow.1
  · exact hnow

/-! ## One move -/

section Move

variable {w : World S} {usage : Usage} {cost : Atoms}

/-- What an attempt to settle a query of a client who is not halted comes to. -/
theorem attempted_after (w : World S) (usage : Usage) (hL : g.ledger.Sound)
    (hq : q ∈ g.ledger.queries.rows) (hst : q.state = .locked)
    (hrun : g.ledger.halted.get? q.client = none)
    (hcost : cost = q.actual.getD (g.config.pricing.cost usage)) :
    Ends
      (fun reply g' => ∃ answer, reply = Completion.reply .receipt answer ∧
        (g.ledger.pricing q cost).Answered q.id cost answer g'.ledger)
      (Fails (g.ledger.pricing q cost) q.id cost) (g.after ⟨w, .settleQuery q.id usage⟩) := by
  have h := ends_settleQuery_of_locked (g := g.inWorld w) usage hL rfl hq hst hcost
  unfold after
  rw [run_settle]
  rcases hr : (settleQuery q.id usage).run (g.inWorld w) with ⟨e | answer, g'⟩ <;> rw [hr] at h
  · exact h.resolve_left fun h => h.2 hrun
  · exact ⟨answer, rfl, h.2⟩

/-- A query of a halted client is not settled. -/
theorem running_of_settled {reply : Reply S} (hL : g.ledger.Sound) (hq : q ∈ g.ledger.queries.rows)
    (hst : q.state = .locked) (h : (g.after ⟨w, .settleQuery q.id usage⟩).1 = .ok reply) :
    g.ledger.halted.get? q.client = none := by
  have hends := ends_settleQuery_of_locked (g := g.inWorld w) usage hL rfl hq hst rfl
  unfold after at h
  rw [run_settle] at h
  rcases hr : (settleQuery q.id usage).run (g.inWorld w) with ⟨e | answer, g'⟩ <;> rw [hr] at h hends
  · cases h
  · exact hends.1

end Move

end Gateway
end VoucherGateway
