import VoucherGateway.Proofs.Run.Attempts

/-!
# Retries — settling again what broke off

An attempt to settle a query may break off at any call to a store.  The first attempt fixes the cost, and from
then on every attempt is a part of the same way, at the end of which the receipt is written.  Main statement:
however often settling breaks off, and whatever usage the later attempts report, the attempt that does not
break off leaves what a single one would have left, but for the time at which the query is finished.
-/

namespace VoucherGateway

variable {S : Scheme}

/-- Whether an operation broke off because a store did not answer. -/
def isBreakOff {α : Type} : Except Error α → Bool
  | .error (.storeUnavailable _) => true
  | _ => false

theorem isOutage_of_isBreakOff {α : Type} {e : Error} (h : isBreakOff (.error e : Except Error α) = true) :
    e.IsOutage := by
  cases e with
  | storeUnavailable detail => exact ⟨detail, rfl⟩
  | _ => cases h

namespace Ledger

variable {L M N : Ledger S} {q : Query S}

theorem Way.halted {id : QueryId} (h : Way id L M) : M.halted = L.halted := by
  induction h with
  | refl => rfl
  | tail _ hstep ih =>
    obtain ⟨-, q, -, -, e, he, -, rfl⟩ := hstep
    rw [← ih]
    cases he with
    | release => rfl
    | charge _ => rfl
    | spend _ spends => rcases spends.cases with ⟨v, rfl⟩ | ⟨p, rfl⟩ | ⟨p, rfl⟩ <;> rfl

/-- Two settlements that go the same way differ in nothing but the time. -/
theorem Settled.unique {id : QueryId} {cost : Atoms} {r r' : Receipt S} {N' : Ledger S} (hL : L.Sound)
    (h : L.Settled id cost r N) (h' : L.Settled id cost r' N') :
    r' = r ∧ ∃ time, N' =
      { N with queries := N.queries.update id fun x => { x with finishedAt := some time } } := by
  obtain ⟨M, q, time, way, rfl, harrived, rfl, rfl⟩ := h
  obtain ⟨M', q', time', way', hid, harrived', rfl, rfl⟩ := h'
  obtain rfl := way.unique way' harrived.ends (hid ▸ harrived'.ends)
  obtain rfl := (way.sound hL).same harrived'.row harrived.row hid
  refine ⟨rfl, time', ?_⟩
  simp only [post, QueryTable.update, List.map_map]
  congr 2
  refine List.map_congr_left fun x _ => ?_
  by_cases hx : x.id = q'.id <;> simp [hx]

/-- The caller is told the same on the same way. -/
theorem Answered.unique {id : QueryId} {cost : Atoms} {answer answer' : Completion (Receipt S)} {N' : Ledger S}
    (hL : L.Sound) (h : L.Answered id cost answer N) (h' : L.Answered id cost answer' N') :
    answer' = answer ∧ ∃ time, N' =
      { N with queries := N.queries.update id fun x => { x with finishedAt := some time } } := by
  obtain ⟨receipt, hsettled, rfl⟩ := h
  obtain ⟨receipt', hsettled', rfl⟩ := h'
  obtain ⟨rfl, htime⟩ := hsettled.unique hL hsettled'
  exact ⟨rfl, htime⟩

/-- An attempt that gets stuck and one that does not cannot go the same way. -/
theorem Settled.not_stuck {cost : Atoms} {r : Receipt S} (hL : L.Sound) (h : L.Settled q.id cost r N)
    (hM : Way q.id L M) (hstuck : M.Stuck q cost) : False := by
  obtain ⟨K, q', time, way, hid, harrived, -⟩ := h
  obtain rfl := way.unique hM (hid ▸ harrived.ends) hstuck.ends
  obtain rfl := (way.sound hL).same harrived.row hstuck.row hid
  exact absurd (hstuck.uncharged.symm.trans harrived.charged) nofun

end Ledger

namespace Gateway

variable {g : Gateway S} {L : Ledger S} {q : Query S}

/-! ## A series of attempts -/

/-- The gateway after attempts to settle a query, which are listed newest first. -/
def attempts (g : Gateway S) (id : QueryId) (tries : List (World S × Usage)) : Gateway S :=
  g.play (tries.map fun t => ⟨t.1, .settleQuery id t.2⟩)

/-- Each of these attempts to settle a query broke off because a store did not answer. -/
def BreakOff (g : Gateway S) (id : QueryId) : List (World S × Usage) → Prop
  | [] => True
  | t :: earlier => g.BreakOff id earlier ∧
    isBreakOff ((g.attempts id earlier).after ⟨t.1, .settleQuery id t.2⟩).1 = true

/-- However many attempts broke off, the next one goes on along the way that the first one began. -/
theorem attempted_after_attempts {usage : Usage} {cost : Atoms} (hL : g.ledger.Sound)
    (hq : q ∈ g.ledger.queries.rows) (hst : q.state = .locked)
    (hrun : g.ledger.halted.get? q.client = none)
    (hcost : cost = q.actual.getD (g.config.pricing.cost usage)) {last : World S × Usage}
    {failed : List (World S × Usage)} (hfirst : ∃ w, (last :: failed).getLast? = some (w, usage))
    (hfailed : g.BreakOff q.id failed) :
    Ends
      (fun reply g' => ∃ answer, reply = Completion.reply .receipt answer ∧
        (g.ledger.pricing q cost).Answered q.id cost answer g'.ledger)
      (Fails (g.ledger.pricing q cost) q.id cost)
      ((g.attempts q.id failed).after ⟨last.1, .settleQuery q.id last.2⟩) := by
  -- by induction on the attempts that broke off; each of them leaves a ledger on the way
  induction failed generalizing last with
  | nil =>
    obtain ⟨w, hw⟩ := hfirst
    obtain rfl : last = (w, usage) := by simpa using hw
    exact attempted_after w usage hL hq hst hrun hcost
  | cons t earlier ih =>
    obtain ⟨hearlier, hout⟩ := hfailed
    have hends := ih (by simpa using hfirst) hearlier
    have hafter : g.attempts q.id (t :: earlier) =
        ((g.attempts q.id earlier).after ⟨t.1, .settleQuery q.id t.2⟩).2 := rfl
    rcases hr : (g.attempts q.id earlier).after ⟨t.1, .settleQuery q.id t.2⟩ with ⟨e | reply, g'⟩
    · rw [hr] at hends hout hafter
      obtain ⟨detail, rfl⟩ := isOutage_of_isBreakOff hout
      obtain ⟨-, way⟩ : Error.IsOutage _ ∧ Ledger.Way q.id (g.ledger.pricing q cost) g'.ledger :=
        hends.resolve_right fun h => by cases h.1.choose_spec
      have hmem := Ledger.mem_pricing hq (g.config.pricing.cost usage)
      rw [← hcost] at hmem
      obtain ⟨released, charged, ids, hq'⟩ := way.row hmem rfl
      have hL' := way.sound (hL.pricing hq hst cost)
      have hrun' : g'.ledger.halted.get? q.client = none := by
        rw [way.halted, Ledger.halted_pricing]
        exact hrun
      -- the query has its cost by now, so nothing more is fixed
      have h := attempted_after last.1 last.2 hL' hq' hst hrun' (rfl : cost = _)
      rw [hafter]
      refine Ends.mono h ?_ ?_
      · rintro reply g'' ⟨answer, rfl, hanswered⟩
        exact ⟨answer, rfl, hanswered.after way⟩
      · intro e g'' hfails
        exact hfails.after way
    · rw [hr] at hout
      cases hout

/-- In every state of every run, for a query that is locked: if settling it for some usage would succeed, then
any series of attempts succeeds of which the first reports that usage and all but the last break off because
a store does not answer, and the last one does not.  It answers the same receipt, and all that lasts is what
the one settlement would have left, except for the time at which the query is finished. -/
theorem retried_settlement (vendor : S.Party) (config : GatewayConfig) (metrics : Metrics)
    (ms : List (Move S)) :
    let g := (fresh vendor config metrics).play ms
    ∀ q ∈ g.queries.rows, q.state = .locked → ∀ (w : World S) (usage : Usage) (receipt : Receipt S),
      let clean := g.after ⟨w, .settleQuery q.id usage⟩
      clean.1 = .ok (.receipt receipt) →
      ∀ (last : World S × Usage) (failed : List (World S × Usage)),
        (∃ first, (last :: failed).getLast? = some (first, usage)) → g.BreakOff q.id failed →
        let retried := (g.attempts q.id failed).after ⟨last.1, .settleQuery q.id last.2⟩
        isBreakOff retried.1 = false →
        retried.1 = .ok (.receipt receipt) ∧
          ∃ time, retried.2.ledger =
            { clean.2.ledger with
              queries := clean.2.ledger.queries.update q.id fun x => { x with finishedAt := some time } } := by
  intro g q hq hst w usage receipt clean hclean last failed hfirst hfailed retried hlast
  have hL : g.ledger.Sound := sound_play (blank_fresh vendor config metrics) ms
  have hrun := running_of_settled hL hq hst hclean
  have honce := attempted_after w usage hL hq hst hrun rfl
  have hseries := attempted_after_attempts hL hq hst hrun rfl hfirst hfailed
  have hP := hL.pricing hq hst (q.actual.getD (g.config.pricing.cost usage))
  change Ends _ _ clean at honce
  change Ends _ _ retried at hseries
  rcases clean with ⟨_, g₁⟩
  obtain rfl := hclean
  obtain ⟨answer, hreply, hanswered⟩ := honce
  rcases hr : retried with ⟨e | reply, g₂⟩ <;> rw [hr] at hseries hlast
  · rcases hseries with ⟨⟨detail, rfl⟩, -⟩ | ⟨-, N, q', hid, way, hstuck, -⟩
    · cases hlast
    · -- the clean settlement has shown that the cost fits
      obtain ⟨_, hsettled, -⟩ := hanswered
      rw [← hid] at hsettled way
      exact (hsettled.not_stuck hP way hstuck).elim
  · obtain ⟨answer', rfl, hretried⟩ := hseries
    obtain ⟨rfl, htime⟩ := hanswered.unique hP hretried
    exact ⟨congrArg Except.ok hreply.symm, htime⟩

/-- The cost cannot be added, then the voucher cannot be marked; the third attempt goes through. -/
theorem retried_settlement_sample :
    let g := Sample.start.play (Sample.reserving 100)
    let clean := g.after ⟨Sample.world, .settleQuery ⟨1⟩ ⟨360000, 0⟩⟩
    let failed := [(Sample.vouchersFailing .markSpent, ⟨0, 0⟩), (Sample.unmarkedFailing .add, ⟨360000, 0⟩)]
    let retried := (g.attempts ⟨1⟩ failed).after ⟨Sample.world, .settleQuery ⟨1⟩ ⟨0, 0⟩⟩
    let receipt : Receipt Scheme.plain :=
      { query := ⟨1⟩, session := ⟨1⟩, estimated := 100, actual := 100, consumed := [Sample.voucher.id]
        partlyUsed := none, creditAfter := ⟨0, 0, 0⟩ }
    clean.1 = .ok (.receipt receipt) ∧ g.BreakOff ⟨1⟩ failed ∧
      retried.1 = .ok (.receipt receipt) ∧
        ∃ time, retried.2.ledger =
          { clean.2.ledger with
            queries := clean.2.ledger.queries.update ⟨1⟩ fun x => { x with finishedAt := some time } } := by
  intro g clean failed retried receipt
  have hclean : clean.1 = .ok (.receipt receipt) := eq_of_receipt? (by decide +kernel)
  have hfailed : g.BreakOff ⟨1⟩ failed := ⟨⟨trivial, by decide +kernel⟩, by decide +kernel⟩
  let q : Query Scheme.plain :=
    { id := ⟨1⟩, session := ⟨1⟩, client := 1, estimated := 100, state := .locked, lockedAt := 0 }
  have hrows : g.queries.rows = [q] := rfl
  have hq : q ∈ g.queries.rows := hrows ▸ List.mem_singleton_self q
  have hlast : isBreakOff retried.1 = false := by decide +kernel
  exact ⟨hclean, hfailed,
    retried_settlement (S := Scheme.plain) 9 Sample.config {} (Sample.reserving 100) q hq rfl Sample.world
      ⟨360000, 0⟩ receipt hclean (Sample.world, ⟨0, 0⟩) failed ⟨_, rfl⟩ hfailed hlast⟩

end Gateway
end VoucherGateway
