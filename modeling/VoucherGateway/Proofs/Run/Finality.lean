import VoucherGateway.Proofs.Run.Attempts
import VoucherGateway.Proofs.Run.Turnover

/-!
# Finality — queries that are settled or aborted

A finished query stays as it is for as long as it is on record, whatever else is called and whatever fails.
Asking again to settle or to abort it is answered from the record and writes nothing.  Main statement:
`final_queries_stable`.
-/

namespace VoucherGateway

variable {S : Scheme}

namespace Gateway

variable {g : Gateway S} {L : Ledger S} {q q' : Query S}

/-! ## Queries over the rest of a run -/

section Later

variable {later : List (Move S)}

theorem next_later (hL : g.ledger.Sound) (later : List (Move S)) :
    g.queries.next ≤ (g.play later).queries.next := by
  induction later with
  | nil => exact Nat.le_refl _
  | cons m earlier ih => exact ih.trans (next_after m (sound_later hL earlier))

/-- A query was there before, or its number was not given out. -/
theorem origin_later (hL : g.ledger.Sound) (hq' : q' ∈ (g.play later).queries.rows) :
    (∃ q ∈ g.queries.rows, q.Becomes q') ∨ g.queries.next ≤ q'.id.number := by
  induction later generalizing q' with
  | nil => exact .inl ⟨q', hq', .refl q'⟩
  | cons m earlier ih =>
    rcases origin_after (sound_later hL earlier) hq' with ⟨r, hr, hb⟩ | hnew
    · rcases ih hr with ⟨q, hq, hbefore⟩ | hold
      · exact .inl ⟨q, hq, hbefore.trans hb⟩
      · exact .inr (hb.id ▸ hold)
    · exact .inr ((next_later hL earlier).trans hnew)

/-- A query that is still on record is the one it was. -/
theorem becomes_later (hL : g.ledger.Sound) (hq : q ∈ g.queries.rows) (hq' : q' ∈ (g.play later).queries.rows)
    (hid : q'.id = q.id) : q.Becomes q' := by
  rcases origin_later hL hq' with ⟨r, hr, hb⟩ | hnew
  · exact hL.same hq hr (hid.symm.trans hb.id) ▸ hb
  · -- the numbers of new queries are new
    exact absurd (hid ▸ hL.numbered.below q hq) (Nat.not_lt.2 hnew)

/-- Queries stay on record until the reaper makes a pass. -/
theorem persists_later (hL : g.ledger.Sound) (hne : ∀ m ∈ later, ∀ asOf, m.call ≠ .reap asOf)
    (hq : q ∈ g.queries.rows) : ∃ q' ∈ (g.play later).queries.rows, q.Becomes q' := by
  induction later with
  | nil => exact ⟨q, hq, .refl q⟩
  | cons m earlier ih =>
    obtain ⟨hm, hearlier⟩ := List.forall_mem_cons.1 hne
    obtain ⟨r, hr, hb⟩ := ih hearlier
    obtain ⟨q', hq', hb'⟩ := persists_after (sound_later hL earlier) hm hr
    exact ⟨q', hq', hb.trans hb'⟩

end Later

/-! ## Asking again -/

theorem run_settleNow_of_settled {receipt : Receipt S} (usage : Usage) (hL : L.Sound) (hg : g.ledger = L)
    (hq : q ∈ L.queries.rows) (hst : q.state = .settled) (hreceipt : q.receipt = some receipt) :
    (settleNow q.id usage).run g = (.ok (.returned receipt), g) := by
  unfold settleNow
  rw [Action.run_bind_of_ok (run_findQuery hL hg hq), hst, hreceipt]
  rfl

theorem run_settleNow_of_aborted (usage : Usage) (hL : L.Sound) (hg : g.ledger = L)
    (hq : q ∈ L.queries.rows) (hst : q.state = .aborted) :
    (settleNow q.id usage).run g = (.error (.queryAborted q.id.text), g) := by
  unfold settleNow
  rw [Action.run_bind_of_ok (run_findQuery hL hg hq), hst]
  rfl

theorem run_abortNow_of_settled (forced : Bool) (hL : L.Sound) (hg : g.ledger = L) (hq : q ∈ L.queries.rows)
    (hst : q.state = .settled) : (abortNow q.id forced).run g = (.error (.querySettled q.id.text), g) := by
  unfold abortNow
  rw [Action.run_bind_of_ok (run_findQuery hL hg hq), hst]
  rfl

theorem run_abortNow_of_aborted (forced : Bool) (hL : L.Sound) (hg : g.ledger = L) (hq : q ∈ L.queries.rows)
    (hst : q.state = .aborted) : (abortNow q.id forced).run g = (.ok (), g) := by
  unfold abortNow
  rw [Action.run_bind_of_ok (run_findQuery hL hg hq), hst]
  rfl

/-- What is done on a query for a client who is not halted, if it answers without touching anything. -/
theorem run_onQuery {α : Type} {act : Step S α} {outcome : Except Error α} (hL : L.Sound) (hg : g.ledger = L)
    (hq : q ∈ L.queries.rows) (hrun : L.halted.get? q.client = none)
    (hact : ∀ g', g'.ledger = L → act.run g' = (outcome, g'))
    (hplain : ∀ e, outcome = .error e → e.isFatal = false) :
    ∃ g', g'.ledger = L ∧
      Op.run (do
        let x ← perform (findQuery q.id)
        enter x.client
        guarding x.client (perform act)) g = (outcome, g') := by
  have henter := ends_enter q.client hg
  rw [Op.run_bind, Op.run_perform, run_findQuery hL hg hq]
  dsimp only
  rw [Op.run_bind]
  rcases hr : (enter q.client).run g with ⟨e | u, g'⟩ <;> rw [hr] at henter
  · exact absurd hrun henter.2.1
  · refine ⟨g', henter.1, ?_⟩
    dsimp only
    rw [Op.run_guarding, Op.run_perform, hact g' henter.1]
    cases outcome with
    | error e => simp [haltFor, hplain e rfl]
    | ok a => rfl

end Gateway

/-- A call is answered, and nothing is written. -/
structure Gateway.Answers (g : Gateway S) (m : Move S) (outcome : Except Error (Reply S)) : Prop where
  outcome : (g.after m).1 = outcome
  untouched : (g.after m).2.ledger = g.ledger

namespace Gateway

variable {g : Gateway S} {q : Query S} {w : World S} {usage : Usage}

theorem answers_settle {outcome : Except Error (Completion (Receipt S))} (hL : g.ledger.Sound) (hq : q ∈ g.queries.rows)
    (hrun : g.gate.isHalted q.client = false)
    (hnow : ∀ g', g'.ledger = g.ledger → (settleNow q.id usage).run g' = (outcome, g'))
    (hplain : ∀ e, outcome = .error e → e.isFatal = false) :
    g.Answers ⟨w, .settleQuery q.id usage⟩ (outcome.map (Completion.reply .receipt)) := by
  obtain ⟨g', hg', hr⟩ := run_onQuery (g := g.inWorld w) hL rfl hq (isHalted_eq_false_iff.1 hrun) hnow hplain
  have hafter : g.after ⟨w, .settleQuery q.id usage⟩ = (outcome.map (Completion.reply .receipt), g') := by
    unfold after
    rw [run_settle, show (settleQuery q.id usage).run (g.inWorld w) = _ from hr]
  exact ⟨congrArg Prod.fst hafter, (congrArg (·.2.ledger) hafter).trans hg'⟩

theorem answers_abort {outcome : Except Error Unit} (hL : g.ledger.Sound) (hq : q ∈ g.queries.rows)
    (hrun : g.gate.isHalted q.client = false)
    (hnow : ∀ g', g'.ledger = g.ledger → (abortNow q.id false).run g' = (outcome, g'))
    (hplain : ∀ e, outcome = .error e → e.isFatal = false) :
    g.Answers ⟨w, .abortQuery q.id⟩ (outcome.map fun _ => .done) := by
  obtain ⟨g', hg', hr⟩ := run_onQuery (g := g.inWorld w) hL rfl hq (isHalted_eq_false_iff.1 hrun) hnow hplain
  have hafter : g.after ⟨w, .abortQuery q.id⟩ = (outcome.map fun _ => .done, g') := by
    unfold after
    rw [show (Call.abortQuery q.id).op = (fun _ => Reply.done) <$> abort q.id false from rfl, Op.run_map,
      show (abort q.id false).run (g.inWorld w) = _ from hr]
  exact ⟨congrArg Prod.fst hafter, (congrArg (·.2.ledger) hafter).trans hg'⟩

/-- A settled query is answered with its receipt, and cannot be aborted. -/
theorem answers_of_settled (w : World S) (usage : Usage) (hL : g.ledger.Sound) (hq : q ∈ g.queries.rows)
    (hst : q.state = .settled) (hrun : g.gate.isHalted q.client = false) :
    ∃ receipt, q.receipt = some receipt ∧ g.Answers ⟨w, .settleQuery q.id usage⟩ (.ok (.receipt receipt)) ∧
      g.Answers ⟨w, .abortQuery q.id⟩ (.error (.querySettled q.id.text)) := by
  obtain ⟨receipt, hreceipt⟩ := Option.isSome_iff_exists.1 ((hL.rows q hq).receipt_iff.2 hst)
  refine ⟨receipt, hreceipt, ?_, ?_⟩
  · exact answers_settle hL hq hrun (fun g' hg' => run_settleNow_of_settled usage hL hg' hq hst hreceipt) nofun
  · exact answers_abort hL hq hrun (fun g' hg' => run_abortNow_of_settled false hL hg' hq hst)
      fun e he => Except.error.inj he ▸ rfl

/-- An aborted query cannot be settled, and to abort it again does nothing. -/
theorem answers_of_aborted (w : World S) (usage : Usage) (hL : g.ledger.Sound) (hq : q ∈ g.queries.rows)
    (hst : q.state = .aborted) (hrun : g.gate.isHalted q.client = false) :
    g.Answers ⟨w, .settleQuery q.id usage⟩ (.error (.queryAborted q.id.text)) ∧
      g.Answers ⟨w, .abortQuery q.id⟩ (.ok .done) := by
  refine ⟨?_, ?_⟩
  · exact answers_settle hL hq hrun (fun g' hg' => run_settleNow_of_aborted usage hL hg' hq hst)
      fun e he => Except.error.inj he ▸ rfl
  · exact answers_abort hL hq hrun (fun g' hg' => run_abortNow_of_aborted false hL hg' hq hst) nofun

/-- A receipt that is answered is on record. -/
theorem recorded_of_receipt {id : QueryId} {receipt : Receipt S} (hL : g.ledger.Sound)
    (h : (g.after ⟨w, .settleQuery id usage⟩).1 = .ok (.receipt receipt)) :
    ∃ q ∈ (g.after ⟨w, .settleQuery id usage⟩).2.queries.rows, q.id = id ∧ q.receipt = some receipt := by
  have hends := ends_settleQuery (g := g.inWorld w) id usage hL rfl
  unfold after at h ⊢
  rw [run_settle] at h ⊢
  rcases hr : (settleQuery id usage).run (g.inWorld w) with ⟨e | answer, g'⟩ <;> rw [hr] at h hends
  · cases h
  · obtain ⟨-, -, q, hq, hid, receipt', hreceipt, rfl | ⟨-, rfl⟩⟩ := hends
    · obtain rfl : receipt' = receipt := Reply.receipt.inj (Except.ok.inj h)
      exact ⟨q, hq, hid, hreceipt⟩
    · cases h

/-- A query on record has a receipt exactly if it is settled, and a receipt that is answered is on record.  For as
long as a query that is settled or aborted is on record, which it is until the reaper makes a pass, its state, its
receipt and whether it was forced stay the same, whatever is called and whatever fails.  Unless its client is
halted, settling it again for any usage answers that receipt if it is settled, and is refused if it is aborted;
aborting it is refused if it is settled, and else goes through; and nothing at all is written by either. -/
theorem final_queries_stable (vendor : S.Party) (config : GatewayConfig) (metrics : Metrics)
    (ms : List (Move S)) :
    let g := (fresh vendor config metrics).play ms
    (∀ q ∈ g.queries.rows, q.receipt.isSome = true ↔ q.state = .settled) ∧
    (∀ (w : World S) (id : QueryId) (usage : Usage) (receipt : Receipt S),
      (g.after ⟨w, .settleQuery id usage⟩).1 = .ok (.receipt receipt) →
      ∃ q ∈ (g.after ⟨w, .settleQuery id usage⟩).2.queries.rows, q.id = id ∧ q.receipt = some receipt) ∧
    ∀ q ∈ g.queries.rows, q.state = .settled ∨ q.state = .aborted → ∀ later : List (Move S),
      let g' := g.play later
      ((∀ m ∈ later, ∀ asOf, m.call ≠ .reap asOf) → ∃ q' ∈ g'.queries.rows, q'.id = q.id) ∧
      ∀ q' ∈ g'.queries.rows, q'.id = q.id →
        q'.state = q.state ∧ q'.receipt = q.receipt ∧ q'.forced = q.forced ∧
          (g'.gate.isHalted q.client = false → ∀ (w : World S) (usage : Usage),
            (q.state = .settled → ∃ receipt, q.receipt = some receipt ∧
              g'.Answers ⟨w, .settleQuery q.id usage⟩ (.ok (.receipt receipt)) ∧
              g'.Answers ⟨w, .abortQuery q.id⟩ (.error (.querySettled q.id.text))) ∧
            (q.state = .aborted →
              g'.Answers ⟨w, .settleQuery q.id usage⟩ (.error (.queryAborted q.id.text)) ∧
              g'.Answers ⟨w, .abortQuery q.id⟩ (.ok .done))) := by
  intro g
  have hL : g.ledger.Sound := sound_play (blank_fresh (S := S) vendor config metrics) ms
  refine ⟨fun q hq => (hL.rows q hq).receipt_iff, fun w id usage receipt => recorded_of_receipt hL, ?_⟩
  intro q hq hfinal later g'
  have hL' : g'.ledger.Sound := sound_later hL later
  refine ⟨fun hne => ?_, fun q' hq' hid => ?_⟩
  · obtain ⟨q', hq', hb⟩ := persists_later hL hne hq
    exact ⟨q', hq', hb.id⟩
  have hb := becomes_later hL hq hq' hid
  have hnot : q.state ≠ .locked := by rcases hfinal with h | h <;> simp [h]
  obtain ⟨hstate, hreceipt, hforced, -⟩ := hb.final hnot
  refine ⟨hstate, hreceipt, hforced, fun hrun w usage => ?_⟩
  rw [← hstate, ← hreceipt, ← hid]
  rw [← hb.client] at hrun
  exact ⟨fun hst => answers_of_settled w usage hL' hq' hst hrun,
    fun hst => answers_of_aborted w usage hL' hq' hst hrun⟩

/-- One query is settled and another aborted; then the reaper makes a pass, and a store is about to fail. -/
theorem final_queries_stable_sample :
    let ms : List (Move Scheme.plain) :=
      [⟨Sample.world, .abortQuery ⟨2⟩⟩, ⟨Sample.world, .settleQuery ⟨1⟩ ⟨180000, 0⟩⟩,
        ⟨Sample.world, .acceptQuery ⟨1⟩ 50⟩] ++ Sample.reserving 50
    let later : List (Move Scheme.plain) :=
      [⟨Sample.unmarkedFailing .read, .settleQuery ⟨2⟩ ⟨0, 0⟩⟩, ⟨Sample.world, .reap 0⟩]
    let g := (Sample.start.play ms).play later
    (∃ receipt, g.Answers ⟨Sample.world, .settleQuery ⟨1⟩ ⟨0, 0⟩⟩ (.ok (.receipt receipt)) ∧
      g.Answers ⟨Sample.world, .abortQuery ⟨1⟩⟩ (.error (.querySettled (QueryId.text ⟨1⟩)))) ∧
    g.Answers ⟨Sample.world, .settleQuery ⟨2⟩ ⟨0, 0⟩⟩ (.error (.queryAborted (QueryId.text ⟨2⟩))) ∧
      g.Answers ⟨Sample.world, .abortQuery ⟨2⟩⟩ (.ok .done) := by
  intro ms later g
  have hstart : fresh (S := Scheme.plain) 9 Sample.config {} = Sample.start := rfl
  obtain ⟨-, -, h⟩ := final_queries_stable (S := Scheme.plain) 9 Sample.config {} ms
  rw [hstart] at h
  obtain ⟨q, hq, hid, hclient, hst⟩ : ∃ q ∈ (Sample.start.play ms).queries.rows,
      q.id = ⟨1⟩ ∧ q.client = 1 ∧ q.state = .settled := by decide +kernel
  obtain ⟨r, hr, hid', hclient', hst'⟩ : ∃ q ∈ (Sample.start.play ms).queries.rows,
      q.id = ⟨2⟩ ∧ q.client = 1 ∧ q.state = .aborted := by decide +kernel
  obtain ⟨q', hq', hkept⟩ : ∃ q' ∈ ((Sample.start.play ms).play later).queries.rows, q'.id = ⟨1⟩ := by
    decide +kernel
  obtain ⟨r', hr', hkept'⟩ : ∃ q' ∈ ((Sample.start.play ms).play later).queries.rows, q'.id = ⟨2⟩ := by
    decide +kernel
  have hrun : ((Sample.start.play ms).play later).gate.isHalted 1 = false := by decide +kernel
  obtain ⟨-, -, -, hsettled⟩ := (h q hq (.inl hst) later).2 q' hq' (hkept.trans hid.symm)
  obtain ⟨-, -, -, haborted⟩ := (h r hr (.inr hst') later).2 r' hr' (hkept'.trans hid'.symm)
  rw [hid, hclient] at hsettled
  rw [hid', hclient'] at haborted
  obtain ⟨receipt, -, hanswers⟩ := (hsettled hrun Sample.world ⟨0, 0⟩).1 hst
  exact ⟨⟨receipt, hanswers⟩, (haborted hrun Sample.world ⟨0, 0⟩).2 hst'⟩

end Gateway
end VoucherGateway
