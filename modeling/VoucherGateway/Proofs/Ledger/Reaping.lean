import VoucherGateway.Gateway.Reaper
import VoucherGateway.Proofs.Ledger.Queries

/-!
# Reaping in the ledger — what a pass of the reaper and the batches write

A pass aborts overdue queries, closes idle sessions and forgets what has been finished for long enough.  What
fails is left for the next pass, so a pass itself never fails.  Batches only move vouchers that were handed
over already.
-/

namespace VoucherGateway

variable {S : Scheme}

/-- The entries of a pass of the reaper as of a time. -/
def Entry.Reaps (asOf : Nat) : Entry S → Prop
  | .released _ => True
  | .aborted _ forced _ => forced = true
  | .closed _ time | .purged time _ => time = asOf
  | _ => False

/-- A pass neither charges queries nor uses up vouchers for them. -/
theorem Entry.Reaps.onRow {asOf : Nat} {e : Entry S} (h : e.Reaps asOf) {L : Ledger S}
    (hn : L.queries.Numbered) (ha : L.Allows e) {x : Query S} (hx : x ∈ L.queries.rows) :
    (e.onRow x).charged = x.charged ∧ (e.onRow x).consumed = x.consumed := by
  have ht := Ledger.turns_onRow hn ha hx
  generalize e.onRow x = y at ht ⊢
  cases ht with
  | completed => cases h
  | charged => cases h
  | _ => exact ⟨rfl, rfl⟩

/-! ## Batches -/

namespace ClientSettlement

variable {c d : ClientSettlement S}

theorem handed_begin {batch : SettlementBatch S} (h : c.begin? = some (batch, d)) : d.handed = c.handed := by
  unfold begin? at h
  split at h
  · cases h
    rfl
  · cases h

theorem handed_complete {reference : String} {n : Nat} (h : c.complete? reference = some (n, d)) :
    d.handed = c.handed := by
  obtain ⟨upTo, -, hd⟩ := Option.map_eq_some_iff.1 h
  obtain rfl := (congrArg Prod.snd hd : _ = d)
  simp [handed, List.map_map, Function.comp_def, List.takeWhile_append_dropWhile]

theorem handed_fail : c.fail.2.handed = c.handed := rfl

end ClientSettlement

namespace Gateway

variable {g : Gateway S} {L : Ledger S} {allowed : Entry S → Prop}

/-! ## A pass -/

/-- An operation that never fails keeps what holds of the ledger. -/
def Keeps (R : Ledger S → Prop) {α : Type} (op : Op S α) : Prop :=
  ∀ g : Gateway S, R g.ledger → Ends (fun _ g' => R g'.ledger) (fun _ _ => False) (op.run g)

/-- What every item keeps is kept by all of them. -/
theorem keeps_countSuccesses {ι : Type} {f : ι → Op S Bool} {R : Ledger S → Prop}
    (hf : ∀ i, Keeps R (f i)) (items : List ι) : Keeps R (countSuccesses f items) := by
  intro g hg
  induction items generalizing g with
  | nil => exact hg
  | cons i rest ih =>
    unfold countSuccesses
    refine Op.ends_bind (hf i g hg) ?_
    intro done g' hg'
    refine Op.ends_bind (ih g' hg') ?_
    intro others g'' hg''
    exact hg''

/-- What the parts of a pass keep is kept by a pass. -/
theorem keeps_reap {R : Ledger S → Prop} {asOf : Nat} (habort : ∀ id, Keeps R (forceAbort id))
    (hclose : ∀ id, Keeps R (closeIdle asOf id)) (hpurge : Keeps R (perform (purge asOf))) :
    Keeps R (reap asOf) := by
  intro g hg
  unfold reap
  rw [Op.run_get_bind]
  refine Op.ends_bind (keeps_countSuccesses habort _ g hg) ?_
  intro aborted g₁ h₁
  rw [Op.run_get_bind]
  refine Op.ends_bind (keeps_countSuccesses hclose _ g₁ h₁) ?_
  intro closed g₂ h₂
  refine Op.ends_bind (hpurge g₂ h₂) ?_
  intro purged g₃ h₃
  let flushed : Gateway S := { g₃ with gate := g₃.gate.prune.2, metrics := g₃.metrics.flush }
  have hflush : flushed.ledger = g₃.ledger := by
    simp only [flushed, ledger, Metrics.counters_flush]
    rfl
  change R flushed.ledger
  rw [hflush]
  exact h₃

/-- An abort that fails counts as none. -/
theorem run_forceAbort (id : QueryId) (g : Gateway S) :
    (forceAbort id).run g = (.ok ((abort id true).run g).1.isOk, ((abort id true).run g).2) := by
  unfold forceAbort
  rw [Op.run_bind, Op.run_attempt]
  rfl

theorem writes_forceAbort {asOf : Nat} (id : QueryId) (hal : ∀ e, Entry.Reaps asOf e → allowed e)
    (hL : L.Sound) (hg : g.ledger = L) :
    Writes allowed L (fun _ _ => True) (fun _ _ => False) ((forceAbort id).run g) := by
  have haborts : ∀ e : Entry S, e.Aborts id true → allowed e := by
    intro e he
    refine hal e ?_
    cases e with
    | released _ => trivial
    | aborted _ _ _ => exact he.2
    | _ => cases he
  have h := writes_abort haborts hL hg
  rw [run_forceAbort]
  rcases hr : (abort id true).run g with ⟨e | _, g'⟩ <;> rw [hr] at h <;> exact ⟨h.1, trivial⟩

theorem writes_closeIdle {asOf : Nat} (id : SessionId) (hal : allowed (.closed id asOf))
    (hg : g.ledger = L) :
    Writes allowed L (fun _ _ => True) (fun _ _ => False) ((closeIdle asOf id).run g) := by
  unfold closeIdle
  rw [Op.run_get_bind]
  cases g.sessions.find? id with
  | none => exact Writes.op_pure hg trivial
  | some s =>
    have henter := ends_enter s.client hg
    dsimp only
    rw [Op.run_bind, Op.run_attempt]
    rcases hr : (enter s.client).run g with ⟨e | _, g'⟩ <;> rw [hr] at henter
    · exact Writes.op_pure henter.1 trivial
    · have hg' : g'.ledger = L := henter.1
      subst hg'
      dsimp only
      rw [Op.run_get_bind]
      split
      · rw [Op.run_set_bind, Op.run_pure]
        refine Writes.of_post rfl ?_ hal trivial trivial
        exact ledger_count { g' with sessions := g'.sessions.close id asOf } .sessionClosed
      · exact Writes.op_pure rfl trivial

theorem writes_purge {asOf : Nat} (hal : ∀ retention, allowed (.purged asOf retention)) (hg : g.ledger = L) :
    Writes allowed L (fun _ _ => True) (fun _ _ => False) ((perform (purge asOf)).run g) := by
  subst hg
  exact Writes.of_post rfl rfl (hal g.config.engine.queryRetention) trivial trivial

/-- A pass never fails, whatever it could not do. -/
theorem writes_reap {asOf : Nat} (hal : ∀ e, Entry.Reaps asOf e → allowed e) (hL : L.Sound)
    (hg : g.ledger = L) :
    Writes allowed L (fun _ _ => True) (fun _ _ => False) ((reap asOf).run g) := by
  subst hg
  have keeps : ∀ {α : Type} {op : Op S α},
      (∀ g' : Gateway S, g'.ledger.Sound →
        Writes allowed g'.ledger (fun _ _ => True) (fun _ _ => False) (op.run g')) →
      Keeps (Ledger.Trail allowed g.ledger) op := by
    intro α op h g' ht
    exact Ends.mono (Writes.after ht (h g' (hL.trail ht))) (fun _ _ h => h.1) fun _ _ h => h.2
  have hreap : Keeps (Ledger.Trail allowed g.ledger) (reap asOf) :=
    keeps_reap (fun id => keeps fun _ hS => writes_forceAbort id hal hS rfl)
      (fun id => keeps fun _ _ => writes_closeIdle id (hal _ rfl) rfl)
      (keeps fun _ _ => writes_purge (fun _ => hal _ rfl) rfl)
  exact Ends.mono (hreap g .refl) (fun _ _ h => ⟨h, trivial⟩) fun _ _ h => h.elim

/-- Whatever a pass aborts it aborts entirely. -/
theorem spares_reap (asOf : Nat) (hL : L.Sound) (hg : g.ledger = L) :
    L.Spares ((reap asOf).run g).2.ledger := by
  let kept (M : Ledger S) : Prop := M.Sound ∧ L.Spares M
  have habort : ∀ id, Keeps kept (forceAbort id) := by
    rintro id g₁ ⟨hsound, hspares⟩
    have hwrites := writes_abort (fun e (h : Entry.Aborts id true e) => h) hsound rfl
    have h := hspares.trans (spares_abort id true hsound rfl)
    rw [run_forceAbort]
    rcases hr : (abort id true).run g₁ with ⟨e | _, g₂⟩ <;> rw [hr] at hwrites h <;>
      exact ⟨hsound.trail hwrites.1, h⟩
  -- nothing else unlocks an estimate
  have keeps : ∀ {α : Type} {op : Op S α} (unlocks : Entry S → Prop), (∀ q, ¬ unlocks (.released q)) →
      (∀ g' : Gateway S, Writes unlocks g'.ledger (fun _ _ => True) (fun _ _ => False) (op.run g')) →
      Keeps kept op := by
    rintro α op unlocks hnone h g₁ ⟨hsound, hspares⟩
    exact Ends.mono (h g₁) (fun _ _ h => ⟨hsound.trail h.1, hspares.trans (h.1.spares hsound hnone)⟩)
      fun _ _ h => h.2
  have hreap : Keeps kept (reap asOf) := by
    refine keeps_reap habort (fun id => ?_) ?_
    · refine keeps (fun e => e = .closed id asOf) (fun q h => by cases h) fun g' => ?_
      exact writes_closeIdle id rfl rfl
    · refine keeps (fun e => ∃ retention, e = .purged asOf retention) (by rintro q ⟨_, ⟨⟩⟩) fun g' => ?_
      exact writes_purge (fun retention => ⟨retention, rfl⟩) rfl
  subst hg
  have h := hreap g ⟨hL, .refl _⟩
  rcases hr : (reap asOf).run g with ⟨e | report, g'⟩ <;> rw [hr] at h
  · exact h.elim
  · exact h.2

end Gateway
end VoucherGateway
