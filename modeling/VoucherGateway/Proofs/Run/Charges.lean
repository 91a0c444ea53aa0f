import VoucherGateway.Proofs.Ledger.Books
import VoucherGateway.Proofs.Run.Locks

/-!
# Charges — what clients are charged over a run

A query is charged once, with the cost of the usage that the first attempt to settle it reports, however often
settling breaks off and is tried again.  Main statement: what a client was ever charged is what is unmarked
and what its spent vouchers are worth, less a voucher that is marked spent but not taken off yet.
-/

namespace VoucherGateway

variable {S : Scheme}

/-! ## What an entry charges -/

/-- An entry leaves the cost of a query as it is, unless it fixes it. -/
theorem Ledger.actual_onRow {L : Ledger S} (hn : L.queries.Numbered) {e : Entry S} (ha : L.Allows e)
    {x : Query S} (hx : x ∈ L.queries.rows) :
    (e.onRow x).actual = x.actual ∨
      ∃ cost, e = .priced x cost ∧ x.state = .locked ∧ (e.onRow x).actual = some cost := by
  have ht := turns_onRow hn ha hx
  generalize e.onRow x = y at ht ⊢
  cases ht with
  | priced cost => exact .inr ⟨cost, rfl, ha.2.1, rfl⟩
  | _ => exact .inl rfl

/-- A pass of the reaper charges nothing. -/
theorem Entry.Reaps.charges {asOf : Nat} {e : Entry S} (h : e.Reaps asOf) (client : S.Party) :
    e.charges client = 0 := by
  cases e with
  | charged _ _ => cases h
  | _ => rfl

theorem Query.Becomes.cost {q q' : Query S} (h : q.Becomes q') (hs : q.Sound) (hch : q.charged = true) :
    q'.cost = q.cost := by
  unfold Query.cost
  rcases h.actual with hnone | hsame
  · have hsome := hs.charged_priced hch
    rw [hnone] at hsome
    cases hsome
  · rw [hsame]

/-- The usage that a call reports for a query. -/
def Call.usage? (id : QueryId) : Call S → Option Usage
  | .settleQuery id' usage => if id' = id then some usage else none
  | _ => none

/-- Whether a call was refused because the client is halted. -/
def isRefusal {α : Type} : Except Error α → Bool
  | .error (.clientHalted _) => true
  | _ => false

namespace Gateway

/-! ## One move -/

section Move

variable {g : Gateway S} {m : Move S}

/-- The query of a number goes on as it is, or its cost is fixed by the usage that a settlement reports. -/
theorem actual_after (hL : g.ledger.Sound) {q q' : Query S} (hq : q ∈ g.queries.rows)
    (hq' : q' ∈ (g.after m).2.queries.rows) (hid : q'.id = q.id) :
    q'.actual = q.actual ∨ q.state = .locked ∧ ∃ usage, m.call = .settleQuery q.id usage ∧
      q'.actual = some (g.config.pricing.cost usage) := by
  refine (related_after (P := fun x y => y.actual = x.actual ∨ x.state = .locked ∧
    ∃ usage, m.call = .settleQuery x.id usage ∧ y.actual = some (g.config.pricing.cost usage))
    (fun _ => .inl rfl) ?trans ?step hL hq hq' hid).2
  case trans =>
    intro x y z hxy hyz h h'
    rcases h with h | ⟨hst, usage, hcall, h⟩
    · rcases h' with h' | ⟨hst, usage, hcall, h'⟩
      · exact .inl (h'.trans h)
      · exact .inr ⟨hxy.locked hst, usage, hxy.id ▸ hcall, h'⟩
    · refine .inr ⟨hst, usage, hcall, ?_⟩
      -- a cost once fixed stays
      rcases hyz.actual with hnone | hsame
      · rw [h] at hnone
        cases hnone
      · exact hsame.trans h
  case step =>
    intro L e x he ha hn hx
    rcases Ledger.actual_onRow hn ha hx with hsame | ⟨cost, rfl, hst, hact⟩
    · exact .inl hsame
    · obtain ⟨usage, hcall, rfl⟩ := he.priced
      exact .inr ⟨hst, usage, hcall, hact⟩

/-- A query is charged only while it is locked, by a settlement. -/
theorem charge_after (hL : g.ledger.Sound) {q q' : Query S} (hq : q ∈ g.queries.rows)
    (hq' : q' ∈ (g.after m).2.queries.rows) (hid : q'.id = q.id) :
    q'.charged = q.charged ∨ q.state = .locked ∧ ∃ usage, m.call = .settleQuery q.id usage := by
  refine (related_after (P := fun x y => y.charged = x.charged ∨ x.state = .locked ∧
    ∃ usage, m.call = .settleQuery x.id usage) (fun _ => .inl rfl) ?trans ?step hL hq hq' hid).2
  case trans =>
    intro x y z hxy _ h h'
    rcases h with h | h
    · exact h'.imp (fun h' => h'.trans h) fun h' => ⟨hxy.locked h'.1, hxy.id ▸ h'.2⟩
    · exact .inr h
  case step =>
    intro L e x he ha hn hx
    have ht := Ledger.turns_onRow hn ha hx
    generalize e.onRow x = y at ht ⊢
    cases ht with
    | charged => exact .inr ⟨ha.2.1, he.charged⟩
    | _ => exact .inl rfl

/-- What a move charges is in the books afterwards. -/
theorem charged_after (m : Move S) (hL : g.ledger.Sound) (c : S.Party) :
    sumFor c Query.cost (newly (·.charged) g.queries.rows (g.after m).2.queries.rows) + g.ledger.books c =
      (g.after m).2.ledger.books c := by
  by_cases hreap : ∃ asOf, m.call = .reap asOf
  · obtain ⟨asOf, hcall⟩ := hreap
    -- whatever is charged after the pass was charged before
    have hnone : newly (·.charged) g.queries.rows (g.after m).2.queries.rows = [] := by
      refine newly_eq_nil fun q' hq' hch => ?_
      obtain ⟨q, hq, hid, hsame, -⟩ := reaped_after hL hcall hq'
      exact ⟨q, hq, hid.symm, hsame ▸ hch⟩
    have hbooks := (trail_after_reap hL hcall).books_eq hL fun e he => he.charges c
    rw [hnone, hbooks]
    exact Nat.zero_add _
  · have hne : ∀ asOf, m.call ≠ .reap asOf := fun asOf hcall => hreap ⟨asOf, hcall⟩
    -- whatever was charged before the move is charged after it
    have hnone : newly (·.charged) (g.after m).2.queries.rows g.queries.rows = [] := by
      refine newly_eq_nil fun q hq hch => ?_
      obtain ⟨q', hq', hb⟩ := persists_after hL hne hq
      exact ⟨q', hq', hb.id, hb.charged hch⟩
    have hsum := sum_after (p := (·.charged)) (w := Query.cost) m hL
      (fun q q' hb hs hch _ => hb.cost hs hch) c
    have hall := (trail_after m hL).charged hL (fun _ x he => he.keeps hne x) c
    rw [hnone, sumFor_filter, sumFor_filter] at hsum
    have hsum : ((g.after m).2.ledger.queries.rows.map (Query.chargedFor c)).sum + 0 =
      (g.ledger.queries.rows.map (Query.chargedFor c)).sum +
        sumFor c Query.cost (newly (·.charged) g.queries.rows (g.after m).2.queries.rows) := hsum
    omega

end Move

/-! ## Attempts -/

/-- The usage that a move reports for a query on record, unless it is refused because the client is halted. -/
def attempt (g : Gateway S) (m : Move S) (id : QueryId) : Option Usage :=
  if (g.queries.find? id).isSome && !isRefusal (g.after m).1 then m.call.usage? id else none

/-- The usage that the first attempt to settle a query in a run reports. -/
def firstUsage (start : Gateway S) (id : QueryId) : List (Move S) → Option Usage
  | [] => none
  | m :: earlier => (start.firstUsage id earlier).or ((start.play earlier).attempt m id)

theorem attempt_eq_some {g : Gateway S} {m : Move S} {id : QueryId} {usage : Usage} :
    g.attempt m id = some usage ↔ (g.queries.find? id).isSome = true ∧ isRefusal (g.after m).1 = false ∧
      m.call = .settleQuery id usage := by
  have hcall : m.call.usage? id = some usage ↔ m.call = .settleQuery id usage := by
    cases m.call with
    | settleQuery id' usage' => simp [Call.usage?]
    | _ => simp [Call.usage?]
  simp [attempt, hcall, and_assoc]

/-- An attempt leaves a query that has a cost or is finished. -/
theorem priced_of_attempt {g : Gateway S} {m : Move S} {id : QueryId} {usage : Usage} (hL : g.ledger.Sound)
    (h : g.attempt m id = some usage) : (g.after m).2.ledger.Priced id := by
  obtain ⟨-, hout, hcall⟩ := attempt_eq_some.1 h
  rcases m with ⟨w, call⟩
  obtain rfl : call = .settleQuery id usage := hcall
  rcases priced_after_settle g w id usage hL with ⟨⟨detail, hrefused⟩, -⟩ | ⟨-, hpriced⟩
  · rw [hrefused] at hout
    cases hout
  · exact hpriced

/-- When a settlement fixes the cost of a query, it is an attempt. -/
theorem attempt_of_priced {g : Gateway S} {m : Move S} {q q' : Query S} {usage : Usage} (hL : g.ledger.Sound)
    (hcall : m.call = .settleQuery q.id usage) (hq : q ∈ g.queries.rows)
    (hq' : q' ∈ (g.after m).2.queries.rows) (hid : q'.id = q.id) (hne : q'.actual ≠ q.actual) :
    g.attempt m q.id = some usage := by
  have hfind : g.queries.find? q.id = some q := hL.numbered.find? hq
  refine attempt_eq_some.2 ⟨Option.isSome_iff_exists.2 ⟨q, hfind⟩, ?_, hcall⟩
  rcases m with ⟨w, call⟩
  obtain rfl : call = .settleQuery q.id usage := hcall
  rcases priced_after_settle g w q.id usage hL with ⟨-, hsame⟩ | ⟨hout, -⟩
  · have hrows : (g.after ⟨w, .settleQuery q.id usage⟩).2.queries = g.queries := congrArg Ledger.queries hsame
    rw [hrows] at hq'
    exact absurd (congrArg Query.actual (hL.same hq' hq hid)) hne
  · rcases hres : (g.after ⟨w, .settleQuery q.id usage⟩).1 with e | reply
    · cases e with
      | clientHalted detail => exact absurd hres (hout detail)
      | _ => rfl
    · rfl

/-! ## Over a run -/

/-- First attempts fix costs: what is true of them after a run. -/
structure FirstCosts (start : Gateway S) (ms : List (Move S)) : Prop where
  /-- A cost is the cost of the usage reported first. -/
  fixed : ∀ q ∈ (start.play ms).queries.rows, ∀ cost, q.actual = some cost →
    ∃ usage, start.firstUsage q.id ms = some usage ∧ cost = start.config.pricing.cost usage
  /-- Nobody attempted to settle a locked query that has no cost. -/
  untried : ∀ q ∈ (start.play ms).queries.rows, q.state = .locked → q.actual = none →
    start.firstUsage q.id ms = none
  /-- Nobody attempted to settle a query that is still to come. -/
  ahead : ∀ id : QueryId, (start.play ms).queries.next ≤ id.number → start.firstUsage id ms = none

section Run

variable {start : Gateway S}

theorem firstUsage_of_earlier {id : QueryId} {m : Move S} {earlier : List (Move S)} {usage : Usage}
    (h : start.firstUsage id earlier = some usage) : start.firstUsage id (m :: earlier) = some usage := by
  simp [firstUsage, h]

theorem firstUsage_of_first {id : QueryId} {m : Move S} {earlier : List (Move S)}
    (h : start.firstUsage id earlier = none) :
    start.firstUsage id (m :: earlier) = (start.play earlier).attempt m id := by
  simp [firstUsage, h]

/-- A query of a number that is not given out cannot be attempted. -/
theorem attempt_of_next_le {g : Gateway S} {m : Move S} {id : QueryId} (hL : g.ledger.Sound)
    (h : g.queries.next ≤ id.number) : g.attempt m id = none := by
  have hfind : g.queries.find? id = none := by
    cases hf : g.queries.find? id with
    | none => rfl
    | some q =>
      obtain ⟨hq, rfl⟩ := QueryTable.mem_of_find? hf
      exact absurd (hL.numbered.below q hq) (Nat.not_lt.2 h)
  simp [attempt, hfind]

/-- A first attempt fixes the cost, and no later one changes it. -/
theorem firstCosts_step {m : Move S} {earlier : List (Move S)} (hstart : start.Blank)
    (h : start.FirstCosts earlier) : start.FirstCosts (m :: earlier) := by
  have hL := sound_play hstart earlier
  have hnext : (start.play earlier).queries.next ≤ (start.play (m :: earlier)).queries.next := next_after m hL
  have fresh_none : ∀ id : QueryId, (start.play earlier).queries.next ≤ id.number →
      start.firstUsage id (m :: earlier) = none := by
    intro id hle
    rw [firstUsage_of_first (h.ahead id hle)]
    exact attempt_of_next_le hL hle
  refine ⟨?_, ?_, fun id hle => fresh_none id (Nat.le_trans hnext hle)⟩
  · intro q' hq' cost hact
    rcases origin_after hL hq' with ⟨q, hq, hb⟩ | hnew
    · rcases hb.actual with hnone | hsame
      · -- the move has fixed the cost, and nobody tried to before
        rcases actual_after hL hq hq' hb.id with hsame | ⟨hst, usage, hcall, hfix⟩
        · rw [hsame, hnone] at hact
          cases hact
        · have hattempt := attempt_of_priced hL hcall hq hq' hb.id (by rw [hfix, hnone]; exact nofun)
          rw [config_play hstart earlier] at hfix
          refine ⟨usage, ?_, Option.some.inj (hact.symm.trans hfix)⟩
          rw [hb.id, firstUsage_of_first (h.untried q hq hst hnone)]
          exact hattempt
      · obtain ⟨usage, hfirst, hcost⟩ := h.fixed q hq cost (hsame ▸ hact)
        exact ⟨usage, by rw [hb.id]; exact firstUsage_of_earlier hfirst, hcost⟩
    · rw [(reserved_after hL hq' hnew).2.1] at hact
      cases hact
  · intro q' hq' hst hact
    rcases origin_after hL hq' with ⟨q, hq, hb⟩ | hnew
    · have hbefore : q.actual = none := by
        rcases hb.actual with hnone | hsame
        · exact hnone
        · exact hsame ▸ hact
      rw [hb.id, firstUsage_of_first (h.untried q hq (hb.locked hst) hbefore)]
      cases hat : (start.play earlier).attempt m q.id with
      | none => rfl
      | some usage =>
        have hsome := priced_of_attempt hL hat q' hq' hb.id hst
        rw [hact] at hsome
        cases hsome
    · exact fresh_none q'.id hnew

theorem firstCosts_play (hstart : start.Blank) (ms : List (Move S)) : start.FirstCosts ms := by
  induction ms with
  | nil =>
    exact ⟨fun q hq => absurd hq (not_mem_nil hstart q), fun q hq => absurd hq (not_mem_nil hstart q),
      fun _ _ => rfl⟩
  | cons m earlier ih => exact firstCosts_step hstart ih

/-- What is in the books is what was charged. -/
theorem charged_play (hstart : start.Blank) (c : S.Party) (ms : List (Move S)) :
    sumFor c Query.cost (start.begun (·.charged) ms) = (start.play ms).ledger.books c := by
  induction ms with
  | nil => exact (hstart.books c).symm
  | cons m earlier ih =>
    rw [begun, sumFor_append, ih]
    exact charged_after m (sound_play hstart earlier) c

/-- What is charged for a query is the cost of the usage reported first. -/
theorem firstUsage_of_charged (hstart : start.Blank) (ms : List (Move S)) :
    ∀ q ∈ start.begun (·.charged) ms,
      ∃ usage, start.firstUsage q.id ms = some usage ∧ q.actual = some (start.config.pricing.cost usage) := by
  induction ms with
  | nil => exact fun _ h => by cases h
  | cons m earlier ih =>
    intro q hq
    rcases List.mem_append.1 hq with hq | hq
    · obtain ⟨hmem, hch, -⟩ := mem_newly.1 hq
      have hs := (sound_play hstart (m :: earlier)).rows q hmem
      obtain ⟨cost, hact⟩ := Option.isSome_iff_exists.1 (hs.charged_priced hch)
      obtain ⟨usage, hfirst, rfl⟩ := (firstCosts_play hstart (m :: earlier)).fixed q hmem cost hact
      exact ⟨usage, hfirst, hact⟩
    · obtain ⟨usage, hfirst, hact⟩ := ih q hq
      exact ⟨usage, firstUsage_of_earlier hfirst, hact⟩

end Run

/-- After every run, what a client was ever charged is its unmarked cost and the worth of its spent vouchers,
less a voucher that is marked spent but not taken off yet.  Every query is charged at most once, and with the
cost of the usage that the first attempt to settle it reported, attempts that a halt refused apart. -/
theorem charged_once (vendor : S.Party) (config : GatewayConfig) (metrics : Metrics) (ms : List (Move S)) :
    let start := fresh vendor config metrics
    let g := start.play ms
    let charged := start.begun (·.charged) ms
    let spent := fun client => (g.ledger.chain client).vouchers.filter fun v =>
      (g.ledger.chain client).spent.contains v.nonce
    (∀ client,
      sumFor client Query.cost charged + ((g.ledger.unreduced client).toList.map (·.atoms.toNat)).sum =
        (g.unmarked.cost client).toNat + ((spent client).map (·.atoms.toNat)).sum) ∧
    (∀ client, ∀ v ∈ g.ledger.unreduced client, v ∈ spent client) ∧
    (charged.map (·.id)).Nodup ∧
    (∀ q ∈ g.queries.rows, q.charged = true → ∃ b ∈ charged, b.id = q.id ∧ b.actual = q.actual) ∧
    (∀ q ∈ charged, ∃ usage, start.firstUsage q.id ms = some usage ∧
      q.actual = some (config.pricing.cost usage)) := by
  intro start g charged spent
  have hstart := blank_fresh (S := S) vendor config metrics
  have hL := sound_play hstart ms
  have hspent : ∀ client, spent client = g.ledger.handed client ++ (g.ledger.unreduced client).toList :=
    fun client => (hL.spent_vouchers client).1
  refine ⟨?_, ?_, nodup_begun_of_kept hstart (fun _ _ hb h => hb.charged h) ms, ?_,
    firstUsage_of_charged hstart ms⟩
  · intro client
    have hbooks : sumFor client Query.cost charged = (g.unmarked.cost client).toNat +
        ((g.ledger.handed client).map (·.atoms.toNat)).sum := charged_play hstart client ms
    rw [hspent, List.map_append, List.sum_append, hbooks, Nat.add_assoc]
  · intro client v hv
    rw [hspent]
    exact List.mem_append_right _ (Option.mem_toList.2 hv)
  · intro q hq hch
    obtain ⟨b, hb, hpb, hbec⟩ := begun_of_mem (p := (·.charged)) hstart ms q hq hch
    have hsound := (begun_of_imp (p := (·.charged)) (r := (·.charged)) hstart (fun _ _ h => h) ms b hb).2.1
    refine ⟨b, hb, hbec.id.symm, ?_⟩
    rcases hbec.actual with hnone | hsame
    · have hsome := hsound.charged_priced hpb
      rw [hnone] at hsome
      cases hsome
    · exact hsame.symm

end Gateway
end VoucherGateway
