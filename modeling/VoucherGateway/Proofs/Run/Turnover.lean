import VoucherGateway.Proofs.Run.Basic

/-!
# Turnover — what queries come to and what becomes of them in a run

Queries are followed through a run by their numbers.  For any property, the queries that have it now and those
that ceased to have it are together those that came to have it (`balance`); a query that is forgotten ceases
to have every property.  Sums over a run are sums over these lists.
-/

namespace VoucherGateway

variable {S : Scheme}

/-- The queries that have a property in a list, and not under the same number in another list. -/
def newly (p : Query S → Bool) (old new : List (Query S)) : List (Query S) :=
  new.filter fun q => p q && !old.any fun r => decide (r.id = q.id) && p r

/-- The queries that have a property in a list, and under the same number in another list. -/
def still (p : Query S → Bool) (old new : List (Query S)) : List (Query S) :=
  new.filter fun q => p q && old.any fun r => decide (r.id = q.id) && p r

/-- A sum over the queries of a client. -/
def sumFor (client : S.Party) (w : Query S → Nat) (qs : List (Query S)) : Nat :=
  ((qs.filter fun q => decide (q.client = client)).map w).sum

theorem sumFor_eq (client : S.Party) (w : Query S → Nat) (qs : List (Query S)) :
    sumFor client w qs = (qs.map fun q => if q.client = client then w q else 0).sum := by
  unfold sumFor
  induction qs with
  | nil => rfl
  | cons q rest ih =>
    by_cases h : q.client = client
    · simp [h, ih]
    · simp [h, ih]

theorem sumFor_filter (client : S.Party) (w : Query S → Nat) (p : Query S → Bool) (qs : List (Query S)) :
    sumFor client w (qs.filter p) =
      (qs.map fun q => if q.client = client ∧ p q = true then w q else 0).sum := by
  rw [sumFor_eq]
  induction qs with
  | nil => rfl
  | cons q rest ih => cases hp : p q <;> simp [hp, ih]

theorem sumFor_append (client : S.Party) (w : Query S → Nat) (xs ys : List (Query S)) :
    sumFor client w (xs ++ ys) = sumFor client w xs + sumFor client w ys := by
  simp [sumFor_eq]

section Lists

variable {p : Query S → Bool} {old new : List (Query S)} {q : Query S} {β : Type} {f : Query S → β}

theorem mem_newly : q ∈ newly p old new ↔ q ∈ new ∧ p q = true ∧ ∀ r ∈ old, r.id = q.id → p r = false := by
  simp [newly]

theorem newly_eq_nil (h : ∀ q ∈ new, p q = true → ∃ r ∈ old, r.id = q.id ∧ p r = true) :
    newly p old new = [] := by
  refine List.eq_nil_iff_forall_not_mem.2 fun q hq => ?_
  obtain ⟨hmem, hp, hnot⟩ := mem_newly.1 hq
  obtain ⟨r, hr, hid, hpr⟩ := h q hmem hp
  rw [hnot r hr hid] at hpr
  cases hpr

/-- For a property that is not lost, what is not listed any more is all there is to ceasing to have it. -/
theorem newly_of_kept (h : ∀ q ∈ new, ∀ r ∈ old, r.id = q.id → p q = true → p r = true) :
    newly p old new = (newly (fun _ => true) old new).filter p := by
  unfold newly
  rw [List.filter_filter]
  refine List.filter_congr fun q hq => ?_
  cases hp : p q with
  | false => simp
  | true =>
    have hany : (old.any fun r => decide (r.id = q.id) && p r) = old.any fun r => decide (r.id = q.id) := by
      refine Bool.eq_iff_iff.2 ?_
      simp only [List.any_eq_true, Bool.and_eq_true, decide_eq_true_eq]
      exact exists_congr fun r => and_congr_right fun hr => and_iff_left_of_imp fun hid => h q hq r hr hid hp
    simp [hany]

theorem mem_still : q ∈ still p old new ↔ q ∈ new ∧ p q = true ∧ ∃ r ∈ old, r.id = q.id ∧ p r = true := by
  simp [still]

theorem filter_perm : (new.filter p).Perm (still p old new ++ newly p old new) := by
  have h := List.filter_append_perm (fun q => old.any fun r => decide (r.id = q.id) && p r) (new.filter p)
  simp only [List.filter_filter, Bool.and_comm] at h
  refine h.symm.trans (List.Perm.of_eq ?_)
  simp only [still, newly, Bool.and_comm]

/-- What stays is the same, seen from either side. -/
theorem still_perm (hold : (old.map (·.id)).Nodup) (hnew : (new.map (·.id)).Nodup)
    (hf : ∀ q ∈ old, ∀ q' ∈ new, q'.id = q.id → p q = true → p q' = true → f q' = f q) :
    ((still p old new).map f).Perm ((still p new old).map f) := by
  have key : ∀ {xs ys : List (Query S)}, (ys.map (·.id)).Nodup →
      ((still p xs ys).map fun q => (q.id, f q)).Nodup := by
    intro xs ys hys
    refine List.Nodup.of_map Prod.fst ?_
    rw [List.map_map]
    exact hys.sublist (List.filter_sublist.map _)
  -- with their numbers the values are without duplicates on either side, so it is enough to compare members
  have hpairs : ((still p old new).map fun q => (q.id, f q)).Perm
      ((still p new old).map fun q => (q.id, f q)) := by
    refine (List.perm_ext_iff_of_nodup (key hnew) (key hold)).2 ?_
    intro a
    simp only [List.mem_map, mem_still]
    constructor
    · rintro ⟨q', ⟨hq', hp', q, hq, hid, hp⟩, rfl⟩
      exact ⟨q, ⟨hq, hp, q', hq', hid.symm, hp'⟩, by rw [hid, hf q hq q' hq' hid.symm hp hp']⟩
    · rintro ⟨q, ⟨hq, hp, q', hq', hid, hp'⟩, rfl⟩
      exact ⟨q', ⟨hq', hp', q, hq, hid.symm, hp⟩, by rw [hid, hf q hq q' hq' hid hp hp']⟩
  have hsnd := hpairs.map Prod.snd
  rw [List.map_map, List.map_map] at hsnd
  exact hsnd

theorem newly_perm (hold : (old.map (·.id)).Nodup) (hnew : (new.map (·.id)).Nodup)
    (hf : ∀ q ∈ old, ∀ q' ∈ new, q'.id = q.id → p q = true → p q' = true → f q' = f q) :
    ((new.filter p).map f ++ (newly p new old).map f).Perm
      ((old.filter p).map f ++ (newly p old new).map f) := by
  have hnewp : ((new.filter p).map f).Perm ((still p old new).map f ++ (newly p old new).map f) := by
    rw [← List.map_append]
    exact filter_perm.map f
  have holdp : ((old.filter p).map f).Perm ((still p new old).map f ++ (newly p new old).map f) := by
    rw [← List.map_append]
    exact filter_perm.map f
  have hstill := still_perm hold hnew hf
  calc
    ((new.filter p).map f ++ (newly p new old).map f).Perm
        (((still p old new).map f ++ (newly p old new).map f) ++ (newly p new old).map f) :=
      hnewp.append_right _
    List.Perm _ (((still p new old).map f ++ (newly p old new).map f) ++ (newly p new old).map f) :=
      (hstill.append_right _).append_right _
    List.Perm _ (((still p new old).map f ++ (newly p new old).map f) ++ (newly p old new).map f) := by
      rw [List.append_assoc, List.append_assoc]
      exact List.perm_append_comm.append_left _
    List.Perm _ ((old.filter p).map f ++ (newly p old new).map f) := (holdp.symm.append_right _)

end Lists

namespace Gateway

/-! ## One move -/

section Move

variable {g : Gateway S} {m : Move S}

/-- A query after a move was there before, or has a new number. -/
theorem origin_after (hL : g.ledger.Sound) {q' : Query S} (hq' : q' ∈ (g.after m).2.queries.rows) :
    (∃ q ∈ g.queries.rows, q.Becomes q') ∨ g.queries.next ≤ q'.id.number := by
  rcases Ledger.Trail.comes_from (trail_after m hL) hL.numbered hq' with hold | ⟨q, -, hle, hb⟩
  · exact .inl hold
  · exact .inr (hb.id ▸ hle)

theorem next_after (m : Move S) (hL : g.ledger.Sound) : g.queries.next ≤ (g.after m).2.queries.next :=
  Ledger.Trail.next_le (trail_after m hL)

/-- A relation that holds across every entry of a move, and so across the move, tells how the query of a
number goes on. -/
theorem related_after {P : Query S → Query S → Prop} (hrefl : ∀ q, P q q)
    (htrans : ∀ {x y z : Query S}, x.Becomes y → y.Becomes z → P x y → P y z → P x z)
    (hstep : ∀ {L : Ledger S} {e x}, m.call.Leaves g.config e → L.Allows e → L.queries.Numbered →
      x ∈ L.queries.rows → P x (e.onRow x))
    (hL : g.ledger.Sound) {q q' : Query S} (hq : q ∈ g.queries.rows)
    (hq' : q' ∈ (g.after m).2.queries.rows) (hid : q'.id = q.id) : q.Becomes q' ∧ P q q' := by
  rcases Ledger.Trail.origin hrefl htrans hstep (trail_after m hL) hL.numbered hq'
    with ⟨r, hr, hb, hP⟩ | ⟨_, r, -, -, hle, hb, -⟩
  · obtain rfl := hL.same hr hq (hb.id.symm.trans hid)
    exact ⟨hb, hP⟩
  · -- a new query has a new number
    have hlt := hL.numbered.below q hq
    rw [← hid, hb.id] at hlt
    exact absurd hlt (Nat.not_lt.2 hle)

theorem becomes_after (hL : g.ledger.Sound) {q q' : Query S} (hq : q ∈ g.queries.rows)
    (hq' : q' ∈ (g.after m).2.queries.rows) (hid : q'.id = q.id) : q.Becomes q' :=
  (related_after (P := fun _ _ => True) (fun _ => trivial) (fun _ _ _ _ => trivial)
    (fun _ _ _ _ => trivial) hL hq hq' hid).1

/-- Queries stay on record in any move but a pass of the reaper. -/
theorem persists_after (hL : g.ledger.Sound) (hne : ∀ asOf, m.call ≠ .reap asOf) {q : Query S}
    (hq : q ∈ g.queries.rows) : ∃ q' ∈ (g.after m).2.queries.rows, q.Becomes q' :=
  Ledger.Trail.goes_on (trail_after m hL) hL.numbered (fun _ x he => he.keeps hne x) hq

/-- A pass of the reaper brings no queries, and neither charges those on record nor uses up vouchers for
them. -/
theorem reaped_after (hL : g.ledger.Sound) {asOf : Nat} (hcall : m.call = .reap asOf) {q' : Query S}
    (hq' : q' ∈ (g.after m).2.queries.rows) :
    ∃ q ∈ g.queries.rows, q'.id = q.id ∧ q'.charged = q.charged ∧ q'.consumed = q.consumed := by
  rcases Ledger.Trail.origin (P := fun x y => y.charged = x.charged ∧ y.consumed = x.consumed)
      (fun _ => ⟨rfl, rfl⟩) (fun _ _ h h' => ⟨h'.1.trans h.1, h'.2.trans h.2⟩)
      (fun he ha hn hx => he.onRow hn ha hx) (trail_after_reap hL hcall) hL.numbered hq'
    with ⟨q, hq, hb, hsame⟩ | ⟨_, _, he, -⟩
  · exact ⟨q, hq, hb.id, hsame⟩
  · cases he

/-- One move: what has a property and what ceased to have it is what had it and what came to have it. -/
theorem turnover_after {p : Query S → Bool} {β : Type} {f : Query S → β} (m : Move S) (hL : g.ledger.Sound)
    (hf : ∀ q q' : Query S, q.Becomes q' → q.Sound → p q = true → p q' = true → f q' = f q) :
    (((g.after m).2.queries.rows.filter p).map f ++
        (newly p (g.after m).2.queries.rows g.queries.rows).map f).Perm
      ((g.queries.rows.filter p).map f ++ (newly p g.queries.rows (g.after m).2.queries.rows).map f) :=
  newly_perm hL.numbered.nodup (sound_after m hL).numbered.nodup
    fun q hq _ hq' hid hp hp' => hf q _ (becomes_after hL hq hq' hid) (hL.rows q hq) hp hp'

/-- The same for sums. -/
theorem sum_after {p : Query S → Bool} {w : Query S → Nat} (m : Move S) (hL : g.ledger.Sound)
    (hw : ∀ q q' : Query S, q.Becomes q' → q.Sound → p q = true → p q' = true → w q' = w q)
    (client : S.Party) :
    sumFor client w ((g.after m).2.queries.rows.filter p) +
        sumFor client w (newly p (g.after m).2.queries.rows g.queries.rows) =
      sumFor client w (g.queries.rows.filter p) +
        sumFor client w (newly p g.queries.rows (g.after m).2.queries.rows) := by
  have h := turnover_after (f := fun q => if q.client = client then w q else 0) m hL
    fun q q' hb hs hp hp' => by rw [hb.client, hw q q' hb hs hp hp']
  simpa only [List.sum_append, sumFor_eq] using h.sum_nat

end Move

/-! ## A whole run -/

/-- The queries that came to have a property in a run, as they were then. -/
def begun (start : Gateway S) (p : Query S → Bool) : List (Move S) → List (Query S)
  | [] => []
  | m :: earlier =>
    newly p (start.play earlier).queries.rows (start.play (m :: earlier)).queries.rows ++
      begun start p earlier

/-- The queries that ceased to have a property or were forgotten in a run, as they were last. -/
def ceased (start : Gateway S) (p : Query S → Bool) : List (Move S) → List (Query S)
  | [] => []
  | m :: earlier =>
    newly p (start.play (m :: earlier)).queries.rows (start.play earlier).queries.rows ++
      ceased start p earlier

section Run

variable {start : Gateway S} {p : Query S → Bool} {β : Type} {f : Query S → β}

/-- What has a property and what ceased to have it is what came to have it. -/
theorem balance (hstart : start.Blank)
    (hf : ∀ q q' : Query S, q.Becomes q' → q.Sound → p q = true → p q' = true → f q' = f q)
    (ms : List (Move S)) :
    (((start.play ms).queries.rows.filter p).map f ++ (start.ceased p ms).map f).Perm
      ((start.begun p ms).map f) := by
  induction ms with
  | nil =>
    have hrows : (start.play []).queries.rows = [] := hstart.rows
    rw [hrows]
    exact .refl _
  | cons m earlier ih =>
    have hstep := turnover_after m (sound_play hstart earlier) hf
    let now := (start.play (m :: earlier)).queries.rows
    let before := (start.play earlier).queries.rows
    simp only [begun, ceased, List.map_append]
    -- the move turns over first, then the run before it
    calc
      ((now.filter p).map f ++ ((newly p now before).map f ++ (start.ceased p earlier).map f)).Perm
          (((now.filter p).map f ++ (newly p now before).map f) ++ (start.ceased p earlier).map f) :=
        .of_eq (List.append_assoc ..).symm
      List.Perm _ (((before.filter p).map f ++ (newly p before now).map f) ++ (start.ceased p earlier).map f) :=
        hstep.append_right _
      List.Perm _ ((before.filter p).map f ++ ((newly p before now).map f ++ (start.ceased p earlier).map f)) :=
        .of_eq (List.append_assoc ..)
      List.Perm _ ((newly p before now).map f ++ ((before.filter p).map f ++ (start.ceased p earlier).map f)) :=
        List.perm_append_comm_assoc _ _ _
      List.Perm _ ((newly p before now).map f ++ (start.begun p earlier).map f) := ih.append_left _

/-- The same for sums. -/
theorem sum_balance (hstart : start.Blank) {w : Query S → Nat}
    (hw : ∀ q q' : Query S, q.Becomes q' → q.Sound → p q = true → p q' = true → w q' = w q)
    (client : S.Party) (ms : List (Move S)) :
    sumFor client w ((start.play ms).queries.rows.filter p) + sumFor client w (start.ceased p ms) =
      sumFor client w (start.begun p ms) := by
  have h := balance (f := fun q => if q.client = client then w q else 0) hstart
    (fun q q' hb hs hp hp' => by rw [hb.client, hw q q' hb hs hp hp']) ms
  have hsum := h.sum_nat
  rw [List.sum_append] at hsum
  simpa only [sumFor_eq] using hsum

/-- Whatever has a property came to have it once. -/
theorem begun_of_mem (hstart : start.Blank) (ms : List (Move S)) :
    ∀ q ∈ (start.play ms).queries.rows, p q = true → ∃ b ∈ start.begun p ms, p b = true ∧ b.Becomes q := by
  induction ms with
  | nil => exact fun q hq => absurd hq (not_mem_nil hstart q)
  | cons m earlier ih =>
    have hL := sound_play hstart earlier
    intro q' hq' hp'
    -- either the property was there before the move, or it came with it
    by_cases hbefore : ∃ q ∈ (start.play earlier).queries.rows, q.id = q'.id ∧ p q = true
    · obtain ⟨q, hq, hid, hp⟩ := hbefore
      obtain ⟨b, hb, hpb, hbec⟩ := ih q hq hp
      exact ⟨b, List.mem_append_right _ hb, hpb, hbec.trans (becomes_after hL hq hq' hid.symm)⟩
    · refine ⟨q', List.mem_append_left _ (mem_newly.2 ⟨hq', hp', ?_⟩), hp', .refl q'⟩
      intro q hq hid
      by_contra hp
      exact hbefore ⟨q, hq, hid, by simpa using hp⟩

/-- A property that implies another comes to a query no earlier than the other. -/
theorem begun_of_imp {r : Query S → Bool} (hstart : start.Blank)
    (himp : ∀ q : Query S, q.Sound → p q = true → r q = true) (ms : List (Move S)) :
    ∀ q ∈ start.begun p ms, p q = true ∧ q.Sound ∧ ∃ b ∈ start.begun r ms, r b = true ∧ b.Becomes q := by
  induction ms with
  | nil => exact fun _ h => by cases h
  | cons m earlier ih =>
    intro q hq
    rcases List.mem_append.1 hq with hq | hq
    · obtain ⟨hmem, hp, -⟩ := mem_newly.1 hq
      have hs := (sound_play hstart (m :: earlier)).rows q hmem
      exact ⟨hp, hs, begun_of_mem hstart (m :: earlier) q hmem (himp q hs hp)⟩
    · obtain ⟨hp, hs, b, hb, hpb, hbec⟩ := ih q hq
      exact ⟨hp, hs, b, List.mem_append_right _ hb, hpb, hbec⟩

theorem begun_below (hstart : start.Blank) (ms : List (Move S)) :
    ∀ q ∈ start.begun p ms, q.id.number < (start.play ms).queries.next := by
  induction ms with
  | nil => exact fun _ h => by cases h
  | cons m earlier ih =>
    intro q hq
    rcases List.mem_append.1 hq with hq | hq
    · exact (sound_play hstart (m :: earlier)).numbered.below q (mem_newly.1 hq).1
    · exact Nat.lt_of_lt_of_le (ih q hq) (next_after m (sound_play hstart earlier))

/-- No query comes to have a property for a second time, if whatever had it before a move rules that out. -/
theorem nodup_begun (hstart : start.Blank)
    (honce : ∀ m earlier, ∀ b ∈ start.begun p earlier, ∀ q ∈ (start.play earlier).queries.rows,
      ∀ q' ∈ (start.play (m :: earlier)).queries.rows, q.id = b.id → q.Becomes q' → p q' = true → p q = true)
    (ms : List (Move S)) : ((start.begun p ms).map (·.id)).Nodup := by
  induction ms with
  | nil => exact List.nodup_nil
  | cons m earlier ih =>
    have hM := sound_play hstart (m :: earlier)
    simp only [begun, List.map_append]
    refine List.nodup_append.2 ⟨hM.numbered.nodup.sublist (List.filter_sublist.map _), ih, ?_⟩
    intro a ha b hb hab
    obtain ⟨q', hq', rfl⟩ := List.mem_map.1 ha
    obtain ⟨q₀, hq₀, rfl⟩ := List.mem_map.1 hb
    obtain ⟨hmem, hp', hnot⟩ := mem_newly.1 hq'
    rcases origin_after (sound_play hstart earlier) hmem with ⟨q, hq, hbec⟩ | hle
    · have hp := honce m earlier q₀ hq₀ q hq q' hmem (hbec.id.symm.trans hab) hbec hp'
      rw [hnot q hq hbec.id.symm] at hp
      cases hp
    · -- a number that is new was not given out to the other
      have hlt := begun_below hstart earlier q₀ hq₀
      rw [← hab] at hlt
      exact absurd hlt (Nat.not_lt.2 hle)

/-- A property that no query has again comes to every query at most once. -/
theorem nodup_begun_of_lost (hstart : start.Blank)
    (hback : ∀ q q' : Query S, q.Becomes q' → p q' = true → p q = true) (ms : List (Move S)) :
    ((start.begun p ms).map (·.id)).Nodup :=
  nodup_begun hstart (fun _ _ _ _ q _ q' _ _ hb hp' => hback q q' hb hp') ms

/-- Whatever came to have a property that is never lost has it as long as it is on record. -/
theorem kept_of_begun (hstart : start.Blank)
    (hforth : ∀ q q' : Query S, q.Becomes q' → p q = true → p q' = true) (ms : List (Move S)) :
    ∀ b ∈ start.begun p ms, ∀ q ∈ (start.play ms).queries.rows, q.id = b.id → p q = true := by
  induction ms with
  | nil => exact fun _ h => by cases h
  | cons m earlier ih =>
    intro b hb q' hq' hid
    rcases List.mem_append.1 hb with hb | hb
    · obtain ⟨hmem, hp, -⟩ := mem_newly.1 hb
      obtain rfl := (sound_play hstart (m :: earlier)).same hq' hmem hid
      exact hp
    · rcases origin_after (sound_play hstart earlier) hq' with ⟨q, hq, hbec⟩ | hle
      · exact hforth q q' hbec (ih b hb q hq (hbec.id.symm.trans hid))
      · have hlt := begun_below hstart earlier b hb
        rw [← hid] at hlt
        exact absurd hlt (Nat.not_lt.2 hle)

/-- A property that is never lost comes to every query at most once. -/
theorem nodup_begun_of_kept (hstart : start.Blank)
    (hforth : ∀ q q' : Query S, q.Becomes q' → p q = true → p q' = true) (ms : List (Move S)) :
    ((start.begun p ms).map (·.id)).Nodup :=
  nodup_begun hstart
    (fun _ earlier b hb q hq _ _ hid _ _ => kept_of_begun hstart hforth earlier b hb q hq hid) ms

theorem begun_suffix {earlier ms : List (Move S)} (h : earlier <:+ ms) :
    start.begun p earlier <:+ start.begun p ms := by
  obtain ⟨later, rfl⟩ := h
  induction later with
  | nil => exact List.suffix_rfl
  | cons m later ih =>
    rw [List.cons_append, begun]
    exact ih.trans (List.suffix_append ..)

theorem sumFor_begun_suffix {c : S.Party} {w : Query S → Nat} {earlier ms : List (Move S)}
    (h : earlier <:+ ms) :
    sumFor c w (start.begun p earlier) ≤ sumFor c w (start.begun p ms) := by
  have hbegun : start.begun p earlier <:+ start.begun p ms := begun_suffix h
  obtain ⟨later, hlater⟩ := hbegun
  rw [← hlater, sumFor_append]
  exact Nat.le_add_left _ _

/-- What ceased to have a property was on record before. -/
theorem mem_ceased (ms : List (Move S)) :
    ∀ q ∈ start.ceased p ms, ∃ earlier, earlier <:+ ms ∧ q ∈ (start.play earlier).queries.rows := by
  induction ms with
  | nil => exact fun _ h => by cases h
  | cons m earlier ih =>
    intro q hq
    rcases List.mem_append.1 hq with hq | hq
    · exact ⟨earlier, List.suffix_cons m earlier, (mem_newly.1 hq).1⟩
    · obtain ⟨before, hsuffix, hmem⟩ := ih q hq
      exact ⟨before, hsuffix.trans (List.suffix_cons m earlier), hmem⟩

end Run
end Gateway
end VoucherGateway
