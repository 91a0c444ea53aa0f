import VoucherGateway.Proofs.Run.Attempts
import VoucherGateway.Proofs.Run.Charges

/-!
# Reliable runs — while every store answers

In a run whose stores answer every call nothing breaks off.  A settlement is done at once or gets stuck
because the cost does not fit, and an abort is done entirely or not at all.  Main statements: between two moves
every client is calm (`calm_after`), a charged query is settled (`settled_after`), and the estimate of a query
that is not finished is locked, unless its cost did not fit (`adrift_after`).
-/

namespace VoucherGateway

variable {S : Scheme}

/-- A world in which every store answers each call. -/
def World.Reliable (w : World S) : Prop := w.vouchers.Reliable ∧ w.unmarked.Reliable ∧ w.balances.Reliable

theorem World.reliable_answering (standings : Table S.Party ChainSnapshot) :
    (World.answering (S := S) standings).Reliable :=
  have never : ∀ {κ : Type} [DecidableEq κ], (Outage.Reliable (κ := κ) {}) := ⟨rfl, nofun⟩
  ⟨never, never, never⟩

/-- Whether an operation met a contradiction. -/
def isViolation {α : Type} : Except Error α → Bool
  | .error (.violation _) => true
  | _ => false

/-- The calls that may give a client something to spend. -/
def Call.Spends : Call S → Prop
  | .acceptSession _ | .topUp _ _ | .settleQuery _ _ => True
  | _ => False

theorem Call.Leaves.stirs {config : GatewayConfig} {call : Call S} {e : Entry S} {client : S.Party}
    (h : call.Leaves config e) (hs : e.Stirs client) : call.Spends := by
  rcases h with h | ⟨_, _, rfl⟩
  · cases e with
    | recorded _ | begun _ _ _ | charged _ _ =>
      cases call with
      | acceptSession _ => trivial
      | topUp _ _ => trivial
      | settleQuery _ _ => trivial
      | abortQuery _ => cases h
      | resumeClient _ => cases h
      | reap _ => cases h
      | _ =>
        obtain ⟨_, h⟩ := h
        cases h
    | _ => cases hs
  · cases hs

/-- The calls that may unlock an estimate. -/
def Call.Unlocks : Call S → Prop
  | .settleQuery _ _ | .abortQuery _ | .reap _ => True
  | _ => False

theorem Call.Leaves.released {config : GatewayConfig} {call : Call S} {q : Query S}
    (h : call.Leaves config (.released q)) : call.Unlocks := by
  rcases h with h | ⟨_, _, h⟩
  · cases call with
    | settleQuery _ _ => trivial
    | abortQuery _ => trivial
    | reap _ => trivial
    | resumeClient _ => cases h
    | acceptSession _ => rcases h with h | ⟨_, h⟩ <;> cases h
    | topUp _ _ => rcases h with h | ⟨_, h⟩ <;> cases h
    | _ =>
      obtain ⟨_, h⟩ := h
      cases h
  · cases h

/-! ## Settling without a break -/

namespace Ledger

variable {L M : Ledger S} {id : QueryId}

/-- What an attempt to settle a query comes to that does not break off: nothing happens, the query is settled,
or its cost does not fit, which is a violation. -/
inductive Concluded (L : Ledger S) (id : QueryId) (violated : Bool) (M : Ledger S) : Prop
  | untouched (same : M = L)
  | settled {q : Query S} {cost : Atoms} {receipt : Receipt S} (row : q ∈ L.queries.rows)
    (locked : q.state = .locked) (number : q.id = id)
    (settled : (L.pricing q cost).Settled id cost receipt M)
  | stuck {q x : Query S} {cost : Atoms} {N : Ledger S} {client : S.Party} {reason : String}
    (row : q ∈ L.queries.rows) (locked : q.state = .locked) (number : q.id = id)
    (way : Way id (L.pricing q cost) N) (same : x.id = id) (stuck : N.Stuck x cost)
    (halted : M = N.post (.halted client reason)) (violation : violated = true)

variable {violated : Bool}

/-- When an attempt is concluded, a query has at most used up vouchers, or it is settled, or its cost does not
fit on top of the unmarked cost. -/
theorem Concluded.row (h : L.Concluded id violated M) (hL : L.Sound) {q' : Query S}
    (hq' : q' ∈ M.queries.rows) :
    (∃ q ∈ L.queries.rows, q.Becomes q' ∧ ∃ ids, q' = { q with consumed := ids }) ∨ q'.state = .settled ∨
      violated = true ∧ q'.charged = false ∧
        Atoms.top.toNat < (L.unmarkedOf q'.client).toNat + q'.cost := by
  cases h with
  | untouched same =>
    rw [same] at hq'
    exact .inl ⟨q', hq', .refl q', q'.consumed, rfl⟩
  | @settled q cost receipt row locked number settled =>
    subst number
    obtain ⟨N, x, time, way, hid, arrived, rfl, rfl⟩ := settled
    have hN := way.sound (hL.pricing row locked cost)
    have hx : Entry.Settles q.client q.id cost (.settled x (N.receipt x cost) time) := hid
    have hlast := arrived.allows time
    by_cases hne : q'.id = q.id
    · have hrow := QueryTable.mem_update arrived.row fun _ =>
        { x with state := .settled, finishedAt := some time, receipt := some (N.receipt x cost) }
      obtain rfl := (hN.post hlast).same hq' hrow (hne.trans hid.symm)
      exact .inr (.inl rfl)
    · exact .inl (Trail.apart ((way.trail_pricing row locked).tail ⟨_, hx, hlast, rfl⟩) hL hq' hne)
  | @stuck q x cost N client reason row locked number way same stuck halted violation =>
    subst number
    have hP := hL.pricing row locked cost
    have hq' : q' ∈ N.queries.rows := by
      rw [halted] at hq'
      exact hq'
    by_cases hne : q'.id = q.id
    · obtain rfl := (way.sound hP).same hq' stuck.row (hne.trans same.symm)
      refine .inr (.inr ⟨violation, stuck.uncharged, ?_⟩)
      have hunmarked : N.unmarked = L.unmarked := by
        obtain ⟨_, _, rfl⟩ := (way.of_uncharged hq' hne stuck.uncharged).rest_of_released
        unfold pricing
        split <;> rfl
      have hcost : q'.cost = cost.toNat := by simp [Query.cost, stuck.priced]
      rw [hcost]
      unfold unmarkedOf
      rw [← hunmarked]
      exact stuck.exceeds
    · exact .inl ((way.trail_pricing row locked).apart hL hq' hne)

theorem Sound.unstirred_pricing (hL : L.Sound) {q : Query S} (hq : q ∈ L.queries.rows) (hst : q.state = .locked)
    (cost : Atoms) {c : S.Party} (hp : L.pending c = none) : L.Unstirred c (L.pricing q cost) := by
  unfold Ledger.pricing
  split
  · exact ⟨hp, rfl, rfl⟩
  · next hact =>
    have ha : L.Allows (.priced q cost) := ⟨hq, hst, by simpa using hact⟩
    exact hL.unstirred_post ha hp nofun

/-- Whatever broke off before, the client of a query that is settled is calm. -/
theorem Settled.calm {q : Query S} {cost : Atoms} {receipt : Receipt S}
    (h : (L.pricing q cost).Settled q.id cost receipt M) (hL : L.Sound) (hq : q ∈ L.queries.rows)
    (hst : q.state = .locked) : M.Calm q.client := by
  obtain ⟨N, x, time, way, hid, arrived, rfl, rfl⟩ := h
  have hN := way.sound (hL.pricing hq hst cost)
  obtain ⟨actual, hrow⟩ := row_pricing hq cost
  obtain ⟨_, _, _, hmem⟩ := way.row hrow rfl
  have hclient : x.client = q.client := by rw [hN.same arrived.row hmem hid]
  have hcalm : N.Calm q.client := hclient ▸ ⟨arrived.done, arrived.absorbed⟩
  exact hcalm.unstirred (hN.unstirred_post (arrived.allows time) hcalm.done nofun)

/-- When an attempt is concluded, clients are calm who were so before. -/
theorem Concluded.calm (h : L.Concluded id violated M) (hL : L.Sound) (hcalm : ∀ c, L.Calm c)
    (c : S.Party) : M.Calm c := by
  cases h with
  | untouched same => exact same ▸ hcalm c
  | @settled q cost receipt row locked number settled =>
    subst number
    by_cases hc : q.client = c
    · exact hc ▸ settled.calm hL row locked
    · obtain ⟨N, x, time, way, -, arrived, rfl, rfl⟩ := settled
      have hP := hL.pricing row locked cost
      have hpricing := hL.unstirred_pricing row locked cost (hcalm c).done
      obtain ⟨actual, hrow⟩ := row_pricing row cost
      have hway : (L.pricing q cost).Unstirred c N := by
        refine (way.course hrow rfl).unstirred hP hpricing.done ?_
        rintro e ⟨y, -, hclient, he⟩ hs
        exact hc (hclient.symm.trans (he.stirs hs))
      exact (hcalm c).unstirred ((hpricing.trans hway).trans
        ((way.sound hP).unstirred_post (arrived.allows time) hway.done nofun))
  | @stuck q x cost N client reason row locked number way same stuck halted violation =>
    have hP := hL.pricing row locked cost
    have hpricing := hL.unstirred_pricing row locked cost (hcalm c).done
    have hway : (L.pricing q cost).Unstirred c N :=
      (way.of_uncharged stuck.row same stuck.uncharged).unstirred hP hpricing.done
        fun _ ⟨_, he⟩ hs => by rw [he] at hs; exact hs
    have ha : N.Allows (.halted client reason) := trivial
    rw [halted]
    exact (hcalm c).unstirred ((hpricing.trans hway).trans
      ((way.sound hP).unstirred_post ha hway.done nofun))

end Ledger

namespace Gateway

variable {g : Gateway S} {w : World S}

theorem concluded_after (hw : w.Reliable) (hL : g.ledger.Sound) (id : QueryId) (usage : Usage) :
    g.ledger.Concluded id (isViolation (g.after ⟨w, .settleQuery id usage⟩).1)
      (g.after ⟨w, .settleQuery id usage⟩).2.ledger := by
  have hreliable := ends_settleQuery_of_reliable (g := g.inWorld w) id usage hw
  unfold after
  rw [run_settle]
  by_cases hlocked : ∃ q ∈ g.ledger.queries.rows, q.id = id ∧ q.state = .locked
  · obtain ⟨q, hq, rfl, hst⟩ := hlocked
    have h := (ends_settleQuery_of_locked (g := g.inWorld w) usage hL rfl hq hst rfl).and hreliable
    rcases hr : (settleQuery q.id usage).run (g.inWorld w) with ⟨e | answer, g'⟩ <;> rw [hr] at h
    · obtain ⟨⟨hsame, -⟩ | ⟨hout, -⟩ | ⟨⟨v, rfl⟩, N, x, hid, way, hstuck, hN, -⟩, hanswers⟩ := h
      · exact .untouched hsame
      · exact absurd hout hanswers
      · exact .stuck hq hst rfl way hid hstuck hN rfl
    · obtain ⟨-, receipt, hsettled, -⟩ := h.1
      exact .settled hq hst rfl hsettled
  · have h := ends_settleQuery_of_final (g := g.inWorld w) usage hL rfl
      fun q hq hid hst => hlocked ⟨q, hq, hid, hst⟩
    rcases hr : (settleQuery id usage).run (g.inWorld w) with ⟨e | answer, g'⟩ <;> rw [hr] at h
    · exact .untouched h
    · exact .untouched h.1

/-- Clients are calm between two moves. -/
theorem calm_after {m : Move S} (hw : m.world.Reliable) (hL : g.ledger.Sound)
    (hcalm : ∀ c, g.ledger.Calm c) (c : S.Party) : (g.after m).2.ledger.Calm c := by
  rcases m with ⟨w, call⟩
  have mapped : ∀ {α : Type} {op : Op S α} {f : α → Reply S},
      Ends (fun _ g' => g'.ledger.Calm c) (fun _ g' => g'.ledger.Calm c) (op.run (g.inWorld w)) →
        ((f <$> op).run (g.inWorld w)).2.ledger.Calm c := by
    intro α op f h
    rw [Op.run_map]
    rcases hr : op.run (g.inWorld w) with ⟨e | a, g'⟩ <;> rw [hr] at h <;> exact h
  have aside : ¬ call.Spends → (g.after ⟨w, call⟩).2.ledger.Calm c := fun hne =>
    (hcalm c).unstirred ((trail_after _ hL).unstirred hL (hcalm c).done fun _ he hs => hne (he.stirs hs))
  cases call with
  | settleQuery id usage => exact (concluded_after hw hL id usage).calm hL hcalm c
  | acceptSession v =>
    refine mapped ((ends_acceptSession (g := g.inWorld w) hL rfl).mono ?_ fun _ _ h => h.calm_all hL hcalm c)
    rintro _ g' ⟨M, time, haccepts, -, hg'⟩
    have hM := haccepts.calm_all hL hw hcalm c
    have ha : M.Allows (.opened v.client v.nonce time) := trivial
    rw [hg']
    exact hM.unstirred ((hL.trail (haccepts.trail hL)).unstirred_post ha hM.done nofun)
  | topUp id v =>
    refine mapped ((ends_topUp (g := g.inWorld w) id hL rfl).mono ?_ fun _ _ h => h.calm_all hL hcalm c)
    rintro _ g' ⟨M, time, haccepts, -, -, hg'⟩
    have hM := haccepts.calm_all hL hw hcalm c
    have ha : M.Allows (.renewed id (some v.nonce) time) := trivial
    rw [hg']
    exact hM.unstirred ((hL.trail (haccepts.trail hL)).unstirred_post ha hM.done nofun)
  | _ => exact aside id

/-- A charged query is settled between two moves, if it was so before. -/
theorem settled_after {m : Move S} (hw : m.world.Reliable) (hL : g.ledger.Sound)
    (hsettled : ∀ q ∈ g.queries.rows, q.charged = true → q.state = .settled) :
    ∀ q ∈ (g.after m).2.queries.rows, q.charged = true → q.state = .settled := by
  intro q' hq' hch
  have kept : ∀ q ∈ g.queries.rows, q.Becomes q' → q'.charged = q.charged → q'.state = .settled := by
    intro q hq hb hsame
    have hst := hsettled q hq (hsame.symm.trans hch)
    exact (hb.final (by simp [hst])).1.trans hst
  rcases m with ⟨w, call⟩
  by_cases hcall : ∃ id usage, call = .settleQuery id usage
  · obtain ⟨id, usage, rfl⟩ := hcall
    rcases (concluded_after hw hL id usage).row hL hq' with ⟨q, hq, hb, ids, rfl⟩ | hst | ⟨-, hnot, -⟩
    · exact kept q hq hb rfl
    · exact hst
    · exact absurd (hch.symm.trans hnot) nofun
  · rcases origin_after hL hq' with ⟨q, hq, hb⟩ | hnew
    · refine kept q hq hb ?_
      rcases charge_after hL hq hq' hb.id with hsame | ⟨-, usage, hsettle⟩
      · exact hsame
      · exact absurd ⟨q.id, usage, hsettle⟩ hcall
    · exact absurd (hch.symm.trans (reserved_after hL hq' hnew).2.2) nofun

/-- A query is left locked with its estimate unlocked by a settlement only. -/
theorem spares_after {m : Move S} (hL : g.ledger.Sound) (hne : ∀ id usage, m.call ≠ .settleQuery id usage) :
    g.ledger.Spares (g.after m).2.ledger := by
  rcases m with ⟨w, call⟩
  have aside : ¬ call.Unlocks → g.ledger.Spares (g.after ⟨w, call⟩).2.ledger := fun hnone =>
    (trail_after ⟨w, call⟩ hL).spares hL fun _ he => hnone he.released
  cases call with
  | settleQuery id usage => exact absurd rfl (hne id usage)
  | abortQuery id =>
    have hop : (g.after ⟨w, .abortQuery id⟩).2 = ((abort id false).run (g.inWorld w)).2 :=
      congrArg Prod.snd (Op.run_map _ _ _)
    rw [hop]
    exact spares_abort (g := g.inWorld w) id false hL rfl
  | reap asOf =>
    have hop : (g.after ⟨w, .reap asOf⟩).2 = ((reap asOf).run (g.inWorld w)).2 :=
      congrArg Prod.snd (Op.run_map _ _ _)
    rw [hop]
    exact spares_reap (g := g.inWorld w) asOf hL rfl
  | _ => exact aside id

/-- A query that is not finished, but whose estimate is unlocked, is left by a move only if its cost does not
fit on top of the unmarked cost. -/
theorem adrift_after {m : Move S} (hw : m.world.Reliable) (hL : g.ledger.Sound) {q' : Query S}
    (hq' : q' ∈ (g.after m).2.queries.rows) (hadrift : q'.adrift = true) :
    (∃ q ∈ g.queries.rows, q.adrift = true ∧ q.Becomes q') ∨
      isViolation (g.after m).1 = true ∧
        Atoms.top.toNat < (g.ledger.unmarkedOf q'.client).toNat + q'.cost := by
  by_cases hsettle : ∃ id usage, m.call = .settleQuery id usage
  · obtain ⟨id, usage, hcall⟩ := hsettle
    rcases m with ⟨w, call⟩
    obtain rfl : call = .settleQuery id usage := hcall
    rcases (concluded_after hw hL id usage).row hL hq' with ⟨q, hq, hb, ids, rfl⟩ | hst | ⟨hv, -, hlt⟩
    · exact .inl ⟨q, hq, hadrift, hb⟩
    · exact absurd ((Query.adrift_iff.1 hadrift).1.symm.trans hst) nofun
    · exact .inr ⟨hv, hlt⟩
  · exact .inl (spares_after hL (fun id usage hcall => hsettle ⟨id, usage, hcall⟩) q' hq' hadrift)

/-! ## Over a run -/

section Run

variable {start : Gateway S} {ms : List (Move S)}

theorem calm_play (hstart : start.Blank) (hworlds : ∀ m ∈ ms, m.world.Reliable) :
    ∀ c, (start.play ms).ledger.Calm c := by
  induction ms with
  | nil => exact hstart.calm
  | cons m earlier ih =>
    obtain ⟨hw, hearlier⟩ := List.forall_mem_cons.1 hworlds
    exact calm_after hw (sound_play hstart earlier) (ih hearlier)

theorem idle_play (hstart : start.Blank) (hworlds : ∀ m ∈ ms, m.world.Reliable) (c : S.Party) :
    (start.play ms).ledger.pending c = none := (calm_play hstart hworlds c).done

theorem settled_play (hstart : start.Blank) (hworlds : ∀ m ∈ ms, m.world.Reliable) :
    ∀ q ∈ (start.play ms).queries.rows, q.charged = true → q.state = .settled := by
  induction ms with
  | nil => exact fun q hq => absurd hq (not_mem_nil hstart q)
  | cons m earlier ih =>
    obtain ⟨hw, hearlier⟩ := List.forall_mem_cons.1 hworlds
    exact settled_after hw (sound_play hstart earlier) (ih hearlier)

end Run

end Gateway
end VoucherGateway
