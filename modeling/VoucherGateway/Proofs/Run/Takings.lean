import VoucherGateway.Proofs.Run.Attempts
import VoucherGateway.Proofs.Run.Charges

/-!
# Takings — what settled queries add up to

The gateway counts the atoms of the queries that it settles.  Each query is counted once, when it is settled, and
stays counted when it is forgotten.  The counter is a word of 64 bits and begins again from zero when it runs over:
it tells the takings of a run as long as they fit, and falls when they do not.  The settlement with which it falls
panics, and no other does.

Main statement: `takings_counted`.
-/

namespace VoucherGateway

variable {S : Scheme}

/-- Whether a query is settled. -/
def Query.isSettled (q : Query S) : Bool := decide (q.state = .settled)

/-- What a query contributes to the takings. -/
def Query.takings (q : Query S) : Nat := if q.isSettled = true then q.cost else 0

/-- What an entry adds to the takings. -/
def Entry.takings : Entry S → Nat
  | .settled _ receipt _ => receipt.actual.toNat
  | _ => 0

/-- An entry counts no settled query but the one that it settles. -/
def Entry.Honest : Entry S → Prop
  | .refused (.querySettled _) => False
  | _ => True

theorem Query.Becomes.settled {q q' : Query S} (h : q.Becomes q') (hst : q.isSettled = true) :
    q'.isSettled = true := by
  have hsettled : q.state = .settled := of_decide_eq_true hst
  have hsame := (h.final (by rw [hsettled]; exact nofun)).1
  exact decide_eq_true (hsame.trans hsettled)

theorem Query.Sound.charged_of_settled {q : Query S} (h : q.Sound) (hst : q.isSettled = true) : q.charged = true :=
  h.settled_charged (of_decide_eq_true hst)

theorem Call.Leaves.honest {config : GatewayConfig} {call : Call S} {e : Entry S} (h : call.Leaves config e) :
    e.Honest := by
  cases e with
  | refused event =>
    rcases h with h | ⟨_, _, he⟩
    · cases call with
      | acceptSession v =>
        rcases h with h | ⟨_, he⟩
        · obtain rfl : event = .sessionRejected := h
          trivial
        · cases he
      | topUp id v =>
        rcases h with h | ⟨_, he⟩
        · obtain rfl : event = .sessionRejected := h
          trivial
        · cases he
      | acceptQuery session estimated =>
        obtain ⟨client, h⟩ := h
        obtain rfl : event = .queryRejected := h
        trivial
      | settleQuery id usage =>
        obtain ⟨client, h⟩ := h
        cases h
      | abortQuery id => cases h
      | resumeClient client => cases h
      | reap asOf => cases h
      | _ =>
        obtain ⟨_, he⟩ := h
        cases he
    · cases he
  | _ => trivial

/-- Calls other than settlements settle nothing. -/
theorem Call.Leaves.takings {config : GatewayConfig} {call : Call S} {e : Entry S} (h : call.Leaves config e)
    (hne : ∀ id usage, call ≠ .settleQuery id usage) : e.takings = 0 := by
  cases e with
  | settled q receipt time =>
    rcases h with h | ⟨_, _, he⟩
    · obtain ⟨id, usage, hcall⟩ := h.of_bills trivial
      exact absurd hcall (hne id usage)
    · cases he
  | _ => rfl

/-- A pass of the reaper settles nothing. -/
theorem Entry.Reaps.takings {asOf : Nat} {e : Entry S} (h : e.Reaps asOf) : e.takings = 0 ∧ e.Honest := by
  cases e with
  | settled _ _ _ => cases h
  | refused _ => cases h
  | _ => exact ⟨rfl, trivial⟩

/-- What is settled after an entry of a pass was settled before. -/
theorem Entry.Reaps.settled_of_onRow {asOf : Nat} {e : Entry S} (h : e.Reaps asOf) {L : Ledger S}
    (hn : L.queries.Numbered) (ha : L.Allows e) {x : Query S} (hx : x ∈ L.queries.rows)
    (hst : (e.onRow x).isSettled = true) : x.isSettled = true := by
  have ht := Ledger.turns_onRow hn ha hx
  generalize e.onRow x = y at ht hst
  cases ht with
  | settled => cases h
  | aborted => exact absurd (of_decide_eq_true hst) nofun
  | _ => exact hst

namespace Ledger

variable {L : Ledger S} {e : Entry S}

/-- What the settled queries on record add up to. -/
def takings (L : Ledger S) : Nat := (L.queries.rows.map Query.takings).sum

theorem atomsSettled_post (h : e.Honest) :
    (L.post e).counters.atomsSettled = L.counters.atomsSettled + UInt64.ofNat e.takings := by
  cases e with
  | settled q receipt time => simp [post, Counters.count, Entry.takings]
  | refused event =>
    cases event with
    | querySettled _ => cases h
    | queryAborted forced => cases forced <;> simp [post, Counters.count, Entry.takings]
    | _ => simp [post, Counters.count, Entry.takings]
  | aborted q forced time => cases forced <;> simp [post, Counters.count, Entry.takings]
  | _ => simp [post, Counters.count, Entry.takings]

theorem Sound.takings_onRow (h : L.Sound) (ha : L.Allows e) {x : Query S} (hx : x ∈ L.queries.rows)
    (hne : ∀ q receipt time, e ≠ .settled q receipt time) : (e.onRow x).takings = x.takings := by
  have ht := turns_onRow h.numbered ha hx
  generalize e.onRow x = y at ht ⊢
  cases ht with
  | settled receipt time => exact absurd rfl (hne x receipt time)
  | priced cost =>
    -- what gets a cost is locked
    simp [Query.takings, Query.isSettled, ha.2.1]
  | aborted forced time => simp [Query.takings, Query.isSettled, ha.2.1]
  | _ => rfl

/-- As long as nothing is forgotten, the takings on record grow by what is settled. -/
theorem Sound.takings_post (h : L.Sound) (ha : L.Allows e) (hkeep : ∀ x, e.keeps x = true) :
    (L.post e).takings = L.takings + e.takings := by
  unfold takings
  by_cases hsettle : ∃ q receipt time, e = .settled q receipt time
  · obtain ⟨q, receipt, time, rfl⟩ := hsettle
    obtain ⟨hq, hst, -, -, -, hact, -⟩ := ha
    have hsum := sum_map_update h.numbered.nodup hq
      (fun _ => { q with state := .settled, finishedAt := some time, receipt := some receipt }) Query.takings
    have hbefore : q.takings = 0 := by simp [Query.takings, Query.isSettled, hst]
    have hafter : Query.takings { q with state := .settled, finishedAt := some time, receipt := some receipt } =
        receipt.actual.toNat := by
      simp [Query.takings, Query.isSettled, Query.cost, hact]
    rw [hbefore, hafter] at hsum
    exact hsum
  · have hsame := fun x hx => h.takings_onRow (x := x) ha hx fun q receipt time he => hsettle ⟨q, receipt, time, he⟩
    rw [sum_rows_post hkeep hsame]
    congr 1
    cases e with
    | settled q receipt time => exact absurd ⟨q, receipt, time, rfl⟩ hsettle
    | reserved q => simp [Entry.fresh, Query.takings, Query.isSettled, Entry.takings, ha.2.1]
    | _ => rfl

/-- As long as nothing is forgotten, counter and takings on record grow alike. -/
theorem Trail.takings {allowed : Entry S → Prop} {M : Ledger S} (ht : Trail allowed L M) (hL : L.Sound)
    (hkeep : ∀ e x, allowed e → e.keeps x = true) (honest : ∀ e, allowed e → e.Honest) :
    L.takings ≤ M.takings ∧
      M.counters.atomsSettled = L.counters.atomsSettled + UInt64.ofNat (M.takings - L.takings) := by
  induction ht with
  | refl => simp
  | tail hpath hstep ih =>
    rcases hstep with ⟨e, he, ha, rfl⟩
    have hM := hL.trail hpath
    obtain ⟨hle, hcounter⟩ := ih
    rw [hM.takings_post ha fun x => hkeep e x he, atomsSettled_post (honest e he), hcounter, UInt64.add_assoc,
      ← UInt64.ofNat_add]
    exact ⟨by omega, by congr 2; omega⟩

/-- What settles nothing leaves the counter alone. -/
theorem Trail.atomsSettled_eq {allowed : Entry S → Prop} {M : Ledger S} (ht : Trail allowed L M)
    (hnone : ∀ e, allowed e → e.takings = 0 ∧ e.Honest) :
    M.counters.atomsSettled = L.counters.atomsSettled := by
  induction ht with
  | refl => rfl
  | tail hpath hstep ih =>
    rcases hstep with ⟨e, he, ha, rfl⟩
    obtain ⟨hzero, honest⟩ := hnone e he
    rw [atomsSettled_post honest, hzero, ih]
    exact UInt64.add_zero _

/-- The takings on record are the costs of the settled queries. -/
theorem takings_eq (L : Ledger S) : L.takings = ((L.queries.rows.filter (·.isSettled)).map Query.cost).sum := by
  have hzero : ∀ x ∈ L.queries.rows, x.isSettled = false → x.takings = 0 := by
    intro x _ hx
    simp [Query.takings, hx]
  have hcost : (L.queries.rows.filter (·.isSettled)).map Query.takings =
      (L.queries.rows.filter (·.isSettled)).map Query.cost :=
    List.map_congr_left fun x hx => if_pos (List.mem_filter.1 hx).2
  rw [← hcost]
  exact (sum_map_filter hzero).symm

end Ledger

namespace Gateway

/-! ## Over a run -/

/-- The queries that were settled in a run, as they were then. -/
def settled (start : Gateway S) (ms : List (Move S)) : List (Query S) := start.begun (·.isSettled) ms

/-- What the queries that were settled in a run add up to. -/
def takings (start : Gateway S) (ms : List (Move S)) : Nat := ((start.settled ms).map Query.cost).sum

/-- A move adds to the counter what it settles. -/
theorem takings_after {g : Gateway S} (m : Move S) (hL : g.ledger.Sound) :
    (g.after m).2.metrics.counters.atomsSettled = g.metrics.counters.atomsSettled + UInt64.ofNat
      ((newly (·.isSettled) g.queries.rows (g.after m).2.queries.rows).map Query.cost).sum := by
  by_cases hreap : ∃ asOf, m.call = .reap asOf
  · obtain ⟨asOf, hcall⟩ := hreap
    have hpass := trail_after_reap hL hcall
    -- whatever is settled after the pass was settled before
    have hnone : newly (·.isSettled) g.queries.rows (g.after m).2.queries.rows = [] := by
      refine newly_eq_nil fun q' hq' hst => ?_
      rcases Ledger.Trail.origin (P := fun x y => y.isSettled = true → x.isSettled = true) (fun _ h => h)
          (fun _ _ h h' hz => h (h' hz)) (fun he ha hn hx => he.settled_of_onRow hn ha hx) hpass hL.numbered hq'
        with ⟨q, hq, hb, hback⟩ | ⟨_, _, he, -⟩
      · exact ⟨q, hq, hb.id.symm, hback hst⟩
      · cases he
    rw [hnone]
    exact (Ledger.Trail.atomsSettled_eq hpass fun _ he => he.takings).trans (UInt64.add_zero _).symm
  · have hne : ∀ asOf, m.call ≠ .reap asOf := fun asOf hcall => hreap ⟨asOf, hcall⟩
    -- whatever was settled before the move is settled after it
    have hnone : newly (·.isSettled) (g.after m).2.queries.rows g.queries.rows = [] := by
      refine newly_eq_nil fun q hq hst => ?_
      obtain ⟨q', hq', hb⟩ := persists_after hL hne hq
      exact ⟨q', hq', hb.id, hb.settled hst⟩
    have hsum := (turnover_after (p := (·.isSettled)) (f := Query.cost) m hL
      fun q q' hb hs hst _ => hb.cost hs (hs.charged_of_settled hst)).sum_nat
    rw [hnone, List.sum_append, List.sum_append] at hsum
    obtain ⟨-, hcounter⟩ := Ledger.Trail.takings (trail_after m hL) hL (fun _ x he => he.keeps hne x)
      fun _ he => he.honest
    have hafter : (g.after m).2.ledger.takings =
        (((g.after m).2.queries.rows.filter (·.isSettled)).map Query.cost).sum := Ledger.takings_eq _
    have hbefore : g.ledger.takings = ((g.queries.rows.filter (·.isSettled)).map Query.cost).sum :=
      Ledger.takings_eq _
    have hnew : (g.after m).2.ledger.takings - g.ledger.takings =
        ((newly (·.isSettled) g.queries.rows (g.after m).2.queries.rows).map Query.cost).sum := by
      rw [List.map_nil, List.sum_nil] at hsum
      omega
    rw [hnew] at hcounter
    exact hcounter

/-! ## Settlements that panic -/

/-- A sum in 64 bits is less than what was added to just if it does not fit. -/
theorem runsOver_iff_falls (c : Counters) (cost : Atoms) :
    c.runsOver (.querySettled cost) = true ↔ (c.count (.querySettled cost)).atomsSettled < c.atomsSettled := by
  rw [Counters.runsOver_querySettled, Atoms.toNat_top, UInt64.lt_iff_toNat_lt]
  change _ ↔ (c.atomsSettled + cost).toNat < c.atomsSettled.toNat
  rw [UInt64.toNat_add]
  have hcost := cost.toNat_lt
  have hcounter := c.atomsSettled.toNat_lt
  omega

/-- A settlement is counted at its cost, and the counters decide between receipt and panic; or nothing is counted,
and there is no panic. -/
theorem recorded_after_settle {g : Gateway S} (hL : g.ledger.Sound) (w : World S) (id : QueryId) (usage : Usage) :
    let after := g.after ⟨w, .settleQuery id usage⟩
    (∃ cost receipt, after.2.metrics.counters = g.metrics.counters.count (.querySettled cost) ∧
        after.1 = .ok (g.metrics.counters.reply (.querySettled cost) (.receipt receipt))) ∨
      after.2.metrics.counters = g.metrics.counters ∧ after.1 ≠ .ok (.panicked .overflow) := by
  intro after
  have hafter : after = (((settleQuery id usage).run (g.inWorld w)).1.map (Completion.reply .receipt),
      ((settleQuery id usage).run (g.inWorld w)).2) := run_settle id usage (g.inWorld w)
  rw [hafter]
  by_cases hlocked : ∃ q ∈ g.ledger.queries.rows, q.id = id ∧ q.state = .locked
  · obtain ⟨q, hq, rfl, hst⟩ := hlocked
    obtain ⟨cost, hcost⟩ : ∃ cost, cost = q.actual.getD (g.config.pricing.cost usage) := ⟨_, rfl⟩
    have h := ends_settleQuery_of_locked (g := g.inWorld w) usage hL rfl hq hst hcost
    rcases hr : (settleQuery q.id usage).run (g.inWorld w) with ⟨e | answer, g'⟩ <;> rw [hr] at h
    · refine .inr ⟨?_, nofun⟩
      rcases h with ⟨hsame, -⟩ | ⟨-, way⟩ | ⟨-, N, x, -, way, -, hN, -⟩
      · exact congrArg Ledger.counters hsame
      · exact way.counters_pricing
      · exact (congrArg Ledger.counters hN).trans way.counters_pricing
    · obtain ⟨-, receipt, ⟨M, x, time, way, -, harrived, rfl, hM⟩, rfl⟩ := h
      refine .inl ⟨cost, M.receipt x cost, (congrArg Ledger.counters hM).trans ?_, ?_⟩
      · exact congrArg (Counters.count · (.querySettled cost)) way.counters_pricing
      · rw [Ledger.counters_pricing]
        exact congrArg Except.ok (Counters.reply_told _ _ _ _)
  · have h := ends_settleQuery_of_final (g := g.inWorld w) usage hL rfl
      fun q hq hid hst => hlocked ⟨q, hq, hid, hst⟩
    rcases hr : (settleQuery id usage).run (g.inWorld w) with ⟨e | answer, g'⟩ <;> rw [hr] at h
    · exact .inr ⟨congrArg Ledger.counters h, nofun⟩
    · obtain ⟨hsame, receipt, rfl⟩ := h
      exact .inr ⟨congrArg Ledger.counters hsame, nofun⟩

/-- The counter falls with a settlement that panics, and with nothing else. -/
theorem falls_iff {g : Gateway S} (m : Move S) (hL : g.ledger.Sound) :
    (g.after m).2.metrics.counters.atomsSettled < g.metrics.counters.atomsSettled ↔
      (∃ id usage, m.call = .settleQuery id usage) ∧ (g.after m).1 = .ok (.panicked .overflow) := by
  rcases m with ⟨w, call⟩
  by_cases hsettle : ∃ id usage, call = .settleQuery id usage
  · obtain ⟨id, usage, rfl⟩ := hsettle
    refine Iff.trans ?_ (and_iff_right ⟨id, usage, rfl⟩).symm
    rcases recorded_after_settle hL w id usage with ⟨cost, receipt, hcounters, hreply⟩ | ⟨hsame, hreply⟩
    · rw [hcounters, hreply, ← runsOver_iff_falls]
      cases hover : g.metrics.counters.runsOver (.querySettled cost) with
      | true =>
        rw [Counters.reply_of_runsOver hover]
        exact ⟨fun _ => rfl, fun _ => rfl⟩
      | false =>
        rw [Counters.reply_of_fits hover]
        exact ⟨nofun, nofun⟩
    · rw [hsame]
      exact ⟨fun h => absurd h (UInt64.lt_irrefl _), fun h => absurd h hreply⟩
  · have hsame : (g.after ⟨w, call⟩).2.metrics.counters.atomsSettled = g.metrics.counters.atomsSettled :=
      Ledger.Trail.atomsSettled_eq (trail_after ⟨w, call⟩ hL) fun e he =>
        ⟨he.takings fun id usage hcall => hsettle ⟨id, usage, hcall⟩, he.honest⟩
    rw [hsame]
    exact ⟨fun h => absurd h (UInt64.lt_irrefl _), fun h => absurd h.1 hsettle⟩

section Run

variable {start : Gateway S}

/-- The counter tells the takings, as far as they fit. -/
theorem takings_play (hstart : start.Blank) (hzero : start.metrics.counters.atomsSettled = 0) (ms : List (Move S)) :
    (start.play ms).metrics.counters.atomsSettled = UInt64.ofNat (start.takings ms) := by
  induction ms with
  | nil => exact hzero
  | cons m earlier ih =>
    have hstep := takings_after m (sound_play hstart earlier)
    rw [ih, ← UInt64.ofNat_add] at hstep
    refine hstep.trans (congrArg UInt64.ofNat ?_)
    simp only [takings, settled, begun, List.map_append, List.sum_append]
    exact Nat.add_comm _ _

theorem takings_suffix {earlier ms : List (Move S)} (h : earlier <:+ ms) :
    start.takings earlier ≤ start.takings ms := by
  have hsettled : start.settled earlier <:+ start.settled ms := begun_suffix h
  obtain ⟨later, hlater⟩ := hsettled
  unfold takings
  rw [← hlater, List.map_append, List.sum_append]
  exact Nat.le_add_left _ _

end Run

/-- In every run whose counters begin at zero, the counter of settled atoms is what the queries that were settled add
up to, less 2^64 for each time that this does not fit; as long as it fits, the counter is exact and does not fall.
It falls with just those settlements that panic.  Each query is settled once, whatever is tried again or forgotten,
at the cost that its receipt shows. -/
theorem takings_counted (vendor : S.Party) (config : GatewayConfig) (persistent : Bool) (file : CounterFile)
    (ms : List (Move S)) :
    let start : Gateway S := fresh vendor config { persistent := persistent, file := file }
    let counter := fun run => (start.play run).metrics.counters.atomsSettled
    (((start.settled ms).map (·.id)).Nodup ∧
      (∀ q ∈ start.settled ms, ∃ receipt, q.receipt = some receipt ∧ q.cost = receipt.actual.toNat) ∧
      ∀ earlier, earlier <:+ ms → ∀ q ∈ (start.play earlier).queries.rows, q.state = .settled →
        ∃ b ∈ start.settled ms, b.id = q.id ∧ b.actual = q.actual) ∧
    (counter ms).toNat = start.takings ms % 0x10000000000000000 ∧
    (start.takings ms < 0x10000000000000000 → (counter ms).toNat = start.takings ms ∧
      ∀ earlier, earlier <:+ ms → counter earlier ≤ counter ms) ∧
    ∀ m : Move S, counter (m :: ms) < counter ms ↔
      (∃ id usage, m.call = .settleQuery id usage) ∧
        ((start.play ms).after m).1 = .ok (.panicked .overflow) := by
  intro start counter
  have hstart : start.Blank := blank_fresh vendor config _
  have hcounter : ∀ run, (counter run).toNat = start.takings run % 0x10000000000000000 := fun run =>
    (congrArg UInt64.toNat (takings_play hstart rfl run)).trans (UInt64.toNat_ofNat ..)
  have hsettled := begun_of_imp (p := (·.isSettled)) (r := (·.isSettled)) hstart (fun _ _ h => h) ms
  refine ⟨⟨nodup_begun_of_kept hstart (fun _ _ hb h => hb.settled h) ms, ?_, ?_⟩, hcounter ms, fun hfits => ?_,
    fun m => falls_iff m (sound_play hstart ms)⟩
  · intro q hq
    obtain ⟨hst, hs, -⟩ := hsettled q hq
    obtain ⟨receipt, hreceipt⟩ := Option.isSome_iff_exists.1 (hs.receipt_iff.2 (of_decide_eq_true hst))
    refine ⟨receipt, hreceipt, ?_⟩
    unfold Query.cost
    rw [hs.receipt_actual receipt hreceipt]
    rfl
  · intro earlier hsuffix q hq hst
    obtain ⟨b, hb, hpb, hbec⟩ := begun_of_mem (p := (·.isSettled)) hstart earlier q hq (decide_eq_true hst)
    have hmem : b ∈ start.settled ms := (begun_suffix hsuffix).subset hb
    refine ⟨b, hmem, hbec.id.symm, ?_⟩
    have hs := (hsettled b hmem).2.1
    rcases hbec.actual with hnone | hsame
    · have hsome := hs.charged_priced (hs.charged_of_settled hpb)
      rw [hnone] at hsome
      cases hsome
    · exact hsame.symm
  · have hexact : (counter ms).toNat = start.takings ms := (hcounter ms).trans (Nat.mod_eq_of_lt hfits)
    refine ⟨hexact, fun earlier hsuffix => ?_⟩
    rw [UInt64.le_iff_toNat_le, hexact, hcounter earlier]
    exact (Nat.mod_le _ _).trans (takings_suffix hsuffix)

/-- Two queries are settled: the first for the largest amount, the second for fifty atoms.  The second call panics,
and the counter falls to forty-nine. -/
theorem takings_run_over :
    let start : Gateway Scheme.plain := fresh (S := Scheme.plain) 9 Sample.perMillisecond {}
    let earlier : List (Move Scheme.plain) := Sample.filling
    let last : Move Scheme.plain := ⟨Sample.world, .settleQuery ⟨2⟩ ⟨50, 0⟩⟩
    (start.play earlier).metrics.counters.atomsSettled = 18446744073709551615 ∧
      ((start.play earlier).after last).1 = .ok (.panicked .overflow) ∧
      (start.play (last :: earlier)).metrics.counters.atomsSettled = 49 ∧
      ¬ (start.play earlier).metrics.counters.atomsSettled ≤
        (start.play (last :: earlier)).metrics.counters.atomsSettled ∧
      start.takings (last :: earlier) = 18446744073709551665 := by
  intro start earlier last
  exact ⟨by decide +kernel, eq_of_panic? (by decide +kernel), by decide +kernel, by decide +kernel,
    by decide +kernel⟩

end Gateway
end VoucherGateway
