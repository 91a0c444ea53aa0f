import VoucherGateway.Proofs.Run.Commitments
import VoucherGateway.Proofs.Run.Reliable

/-!
# Aborts — what aborted queries were charged

An abort looks at the estimate of a query, not at the charge.  A query whose settlement broke off after the
charge can be aborted, and what it was charged stays in the books.  Main statement: what a client was charged
is the cost of the queries that are settled, or still locked and charged already, and of such aborted ones;
while every store answers there are none of those.
-/

namespace VoucherGateway

variable {S : Scheme}

/-- Whether the cost of a query counts: the query is settled, or it is still locked and charged already. -/
def Query.due (q : Query S) : Bool := decide (q.state = .settled) || decide (q.state = .locked) && q.charged

/-- Whether a query is aborted although it was charged. -/
def Query.forfeited (q : Query S) : Bool := decide (q.state = .aborted) && q.charged

theorem Query.Sound.due_iff {q : Query S} (h : q.Sound) :
    q.due = true ↔ q.charged = true ∧ q.state ≠ .aborted := by
  have hbegun := h.begun
  have hsettled := h.settled_charged
  unfold due
  cases hst : q.state with
  | pending => exact absurd hst hbegun
  | locked => simp
  | settled => simp [hsettled hst]
  | aborted => simp

namespace Gateway

/-- The queries forgotten in a run, as they were last. -/
def forgotten (start : Gateway S) (ms : List (Move S)) : List (Query S) := start.ceased (fun _ => true) ms

/-- The queries of a run, as they are or as they were last. -/
def everyQuery (start : Gateway S) (ms : List (Move S)) : List (Query S) :=
  (start.play ms).queries.rows ++ start.forgotten ms

section Run

variable {start : Gateway S}

theorem mem_everyQuery {ms : List (Move S)} {q : Query S} (hq : q ∈ start.everyQuery ms) :
    ∃ earlier, earlier <:+ ms ∧ q ∈ (start.play earlier).queries.rows := by
  rcases List.mem_append.1 hq with hq | hq
  · exact ⟨ms, List.suffix_rfl, hq⟩
  · exact mem_ceased ms q hq

theorem ids_everyQuery (hstart : start.Blank) (ms : List (Move S)) :
    ((start.everyQuery ms).map (·.id)).Perm ((start.begun (fun _ => true) ms).map (·.id)) := by
  have h := balance (p := fun _ => true) (f := fun q => q.id) hstart (fun _ _ hb _ _ _ => hb.id) ms
  rw [← List.map_append, List.filter_true] at h
  exact h

/-- A charge is not taken back, so a charged query ceases to be charged only when it is forgotten. -/
theorem ceased_charged (hstart : start.Blank) (ms : List (Move S)) :
    start.ceased (·.charged) ms = (start.forgotten ms).filter (·.charged) := by
  induction ms with
  | nil => rfl
  | cons m earlier ih =>
    let now := (start.play (m :: earlier)).queries.rows
    let before := (start.play earlier).queries.rows
    have hkept : newly (·.charged) now before = (newly (fun _ => true) now before).filter (·.charged) :=
      newly_of_kept fun q hq r hr hid hch => (becomes_after (sound_play hstart earlier) hq hr hid).charged hch
    unfold forgotten at ih ⊢
    rw [ceased, ceased, List.filter_append, ← ih, hkept]

/-- What is in the books is the cost of the queries that are charged, forgotten ones among them. -/
theorem books_play (hstart : start.Blank) (c : S.Party) (ms : List (Move S)) :
    (start.play ms).ledger.books c = sumFor c Query.cost ((start.everyQuery ms).filter (·.charged)) := by
  have hsum := sum_balance (p := (·.charged)) (w := Query.cost) hstart
    (fun _ _ hb hs hch _ => hb.cost hs hch) c ms
  rw [charged_play hstart, ceased_charged hstart, ← sumFor_append, ← List.filter_append] at hsum
  exact hsum.symm

end Run

/-- After every run, what a client was charged, that is the unmarked cost and the atoms of the vouchers handed
over, is the cost of its queries that are settled or still locked and charged already, and of those that are
aborted although they were charged.  Queries that are forgotten count as they were last, and every query
counts once.  While every store answers, no aborted query was charged. -/
theorem charges_by_state (vendor : S.Party) (config : GatewayConfig) (metrics : Metrics)
    (ms : List (Move S)) :
    let start := fresh vendor config metrics
    let g := start.play ms
    let queries := start.everyQuery ms
    (∀ client, (g.unmarked.cost client).toNat + ((g.ledger.handed client).map (·.atoms.toNat)).sum =
      sumFor client Query.cost (queries.filter Query.due) +
        sumFor client Query.cost (queries.filter Query.forfeited)) ∧
    (queries.map (·.id)).Nodup ∧
    (∀ earlier, earlier <:+ ms → ∀ q ∈ (start.play earlier).queries.rows, q.id ∈ queries.map (·.id)) ∧
    ((∀ m ∈ ms, m.world.Reliable) → ∀ q ∈ queries, q.state = .aborted → q.charged = false) := by
  intro start g queries
  have hstart := blank_fresh (S := S) vendor config metrics
  have hids := ids_everyQuery hstart ms
  have hsound : ∀ q ∈ queries, q.Sound := by
    intro q hq
    obtain ⟨earlier, -, hmem⟩ := mem_everyQuery hq
    exact (sound_play hstart earlier).rows q hmem
  refine ⟨?_, ?_, ?_, ?_⟩
  · intro client
    have hdue : (queries.filter (·.charged)).filter Query.due = queries.filter Query.due := by
      rw [List.filter_filter]
      refine List.filter_congr fun q hq => ?_
      have h := (hsound q hq).due_iff
      cases hd : q.due with
      | false => rfl
      | true => exact (h.1 hd).1
    have hforfeited : (queries.filter (·.charged)).filter (fun q => !q.due) =
        queries.filter Query.forfeited := by
      rw [List.filter_filter]
      refine List.filter_congr fun q hq => Bool.eq_iff_iff.2 ?_
      have h := (hsound q hq).due_iff
      simp only [Query.forfeited, Bool.and_eq_true, Bool.not_eq_true', decide_eq_true_eq,
        ← Bool.not_eq_true, h]
      tauto
    have hbooks := books_play hstart client ms
    rw [sumFor_split Query.due, hdue, hforfeited] at hbooks
    exact hbooks
  · exact (hids.nodup_iff).2 (nodup_begun_of_lost hstart (fun _ _ _ _ => rfl) ms)
  · intro earlier hsuffix q hq
    obtain ⟨b, hb, -, hbec⟩ := begun_of_mem (p := fun _ => true) hstart earlier q hq rfl
    refine hids.mem_iff.2 ?_
    rw [hbec.id]
    exact List.mem_map_of_mem ((begun_suffix hsuffix).subset hb)
  · intro hworlds q hq hst
    obtain ⟨earlier, hsuffix, hmem⟩ := mem_everyQuery hq
    by_contra hch
    have hearlier := fun m hm => hworlds m (hsuffix.subset hm)
    have hsettled := settled_play hstart hearlier q hmem (by simpa using hch)
    exact absurd (hst.symm.trans hsettled) nofun

/-- While every store answers, a query that is aborted has not been charged. -/
theorem charges_by_state_sample :
    let ms : List (Move Scheme.plain) := ⟨Sample.world, .abortQuery ⟨1⟩⟩ :: Sample.reserving 50
    (∀ m ∈ ms, m.world.Reliable) ∧ (∃ q ∈ Sample.start.everyQuery ms, q.state = .aborted) ∧
      ∀ q ∈ Sample.start.everyQuery ms, q.state = .aborted → q.charged = false := by
  intro ms
  have hworld : Sample.world.Reliable := World.reliable_answering _
  have hworlds : ∀ m ∈ ms, m.world.Reliable := by
    simp [ms, Sample.reserving, hworld]
  exact ⟨hworlds, by decide +kernel,
    (charges_by_state (S := Scheme.plain) 9 Sample.config {} ms).2.2.2 hworlds⟩

/-- The cost is added, but the vouchers cannot be read; then the query is aborted, and stays charged. -/
theorem aborted_after_charge :
    let ms : List (Move Scheme.plain) :=
      [⟨Sample.world, .abortQuery ⟨1⟩⟩, ⟨Sample.vouchersFailing .unspent, .settleQuery ⟨1⟩ ⟨144000, 0⟩⟩] ++
        Sample.reserving 50
    let g := Sample.start.play ms
    let queries := Sample.start.everyQuery ms
    (∀ q ∈ queries, q.state = .aborted) ∧ (queries.filter Query.due) = [] ∧
      (g.unmarked.cost 1).toNat = 40 := by
  decide +kernel

end Gateway
end VoucherGateway
