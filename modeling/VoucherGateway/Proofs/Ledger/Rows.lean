import Mathlib.Algebra.Order.Ring.Nat
import Mathlib.Data.List.Nodup
import VoucherGateway.Proofs.Ledger.Basic

/-!
# Ledger rows — how the queries on record change

An entry changes at most one query, and only forwards: `Query.Becomes` says what never goes back.  A query is
on record at most once, so sums over all queries change by what the one query contributes (`sum_map_update`).
-/

namespace VoucherGateway

variable {S : Scheme}

/-- What is true of every query on record, whatever has happened to it. -/
structure Query.Sound (q : Query S) : Prop where
  begun : q.state ≠ .pending
  final_released : q.state ≠ .locked → q.released = true
  charged_released : q.charged = true → q.released = true
  charged_priced : q.charged = true → q.actual.isSome = true
  settled_charged : q.state = .settled → q.charged = true
  receipt_iff : q.receipt.isSome = true ↔ q.state = .settled
  receipt_consumed : ∀ r, q.receipt = some r → r.consumed = q.consumed
  receipt_actual : ∀ r, q.receipt = some r → q.actual = some r.actual
  finished_iff : q.finishedAt.isSome = true ↔ q.state ≠ .locked

/-- A query as it is, and as it may be later. -/
structure Query.Becomes (q q' : Query S) : Prop where
  id : q'.id = q.id
  session : q'.session = q.session
  client : q'.client = q.client
  estimated : q'.estimated = q.estimated
  actual : q.actual = none ∨ q'.actual = q.actual
  released : q.released = true → q'.released = true
  charged : q.charged = true → q'.charged = true
  locked : q'.state = .locked → q.state = .locked
  final : q.state ≠ .locked → q'.state = q.state ∧ q'.receipt = q.receipt ∧ q'.forced = q.forced ∧
    q'.finishedAt = q.finishedAt
  consumed : q.consumed <+: q'.consumed

namespace Query.Becomes

theorem refl (q : Query S) : q.Becomes q where
  id := rfl
  session := rfl
  client := rfl
  estimated := rfl
  actual := .inr rfl
  released := fun h => h
  charged := fun h => h
  locked := fun h => h
  final := fun _ => ⟨rfl, rfl, rfl, rfl⟩
  consumed := List.prefix_rfl

theorem trans {a b c : Query S} (h : a.Becomes b) (k : b.Becomes c) : a.Becomes c where
  id := k.id.trans h.id
  session := k.session.trans h.session
  client := k.client.trans h.client
  estimated := k.estimated.trans h.estimated
  actual := by
    rcases h.actual with ha | hb
    · exact .inl ha
    · rcases k.actual with hn | hc
      · exact .inl (hb ▸ hn)
      · exact .inr (hc.trans hb)
  released := fun ha => k.released (h.released ha)
  charged := fun ha => k.charged (h.charged ha)
  locked := fun hc => h.locked (k.locked hc)
  final := by
    intro ha
    obtain ⟨h1, h2, h3, h4⟩ := h.final ha
    obtain ⟨k1, k2, k3, k4⟩ := k.final (h1 ▸ ha)
    exact ⟨k1.trans h1, k2.trans h2, k3.trans h3, k4.trans h4⟩
  consumed := h.consumed.trans k.consumed

theorem holds {q q' : Query S} (h : q.Becomes q') (hq : q'.holds = true) : q.holds = true := by
  simp only [Query.holds, Bool.and_eq_true, decide_eq_true_eq, Bool.not_eq_true'] at hq ⊢
  refine ⟨h.locked hq.1, ?_⟩
  cases hr : q.released with
  | false => rfl
  | true => exact absurd (h.released hr) (by simp [hq.2])

end Query.Becomes

/-- What an entry turns a query on record into. -/
inductive Query.Turns (x : Query S) : Entry S → Query S → Prop
  | same (e : Entry S) : Turns x e x
  | completed {client : S.Party} {p : PendingSpend S} (served : p.query = some x.id) :
    Turns x (.completed client p) { x with consumed := x.consumed ++ [p.voucher.id] }
  | priced (cost : Atoms) : Turns x (.priced x cost) { x with actual := some cost }
  | released : Turns x (.released x) { x with released := true }
  | charged (cost : Atoms) : Turns x (.charged x cost) { x with charged := true }
  | settled (receipt : Receipt S) (time : Nat) :
    Turns x (.settled x receipt time)
      { x with state := .settled, finishedAt := some time, receipt := some receipt }
  | aborted (forced : Bool) (time : Nat) :
    Turns x (.aborted x forced time)
      { x with forced := forced, state := .aborted, finishedAt := some time }

/-- The query that an entry is about, unless it only adds to what a query used up. -/
def Entry.subject : Entry S → Option QueryId
  | .priced q _ | .released q | .charged q _ | .settled q _ _ | .aborted q _ _ => some q.id
  | _ => none

/-- The same query but for the vouchers that it used up. -/
def Query.Refills (x y : Query S) : Prop := ∃ ids, y = { x with consumed := ids }

theorem Query.Refills.refl (x : Query S) : x.Refills x := ⟨x.consumed, rfl⟩

theorem Query.Refills.trans {x y z : Query S} (h : x.Refills y) (h' : y.Refills z) : x.Refills z := by
  obtain ⟨ids, rfl⟩ := h
  obtain ⟨ids', rfl⟩ := h'
  exact ⟨ids', rfl⟩

theorem Query.Turns.refills {x y : Query S} {e : Entry S} (h : x.Turns e y) (hne : e.subject ≠ some x.id) :
    x.Refills y := by
  cases h with
  | same => exact .refl x
  | completed => exact ⟨_, rfl⟩
  | _ => exact absurd rfl hne

/-! ## Rows by their numbers -/

theorem eq_of_mem_of_id_eq {rows : List (Query S)} (hn : (rows.map (·.id)).Nodup) {x y : Query S}
    (hx : x ∈ rows) (hy : y ∈ rows) (h : x.id = y.id) : x = y :=
  List.inj_on_of_nodup_map hn hx hy h

/-- A sum over all queries changes by what the changed one contributes. -/
theorem sum_map_update {rows : List (Query S)} (hn : (rows.map (·.id)).Nodup) {q : Query S} (hq : q ∈ rows)
    (f : Query S → Query S) (w : Query S → Nat) :
    ((rows.map fun x => if x.id = q.id then f x else x).map w).sum + w q = (rows.map w).sum + w (f q) := by
  induction rows with
  | nil => cases hq
  | cons x rows ih =>
    have hx : ∀ y ∈ rows, y.id ≠ x.id := by
      intro y hy e
      exact (List.nodup_cons.1 hn).1 (List.mem_map.2 ⟨y, hy, e⟩)
    by_cases h : x.id = q.id
    · -- `q` is in front, and no row behind it has its number
      have hxq : x = q := eq_of_mem_of_id_eq hn List.mem_cons_self hq h
      subst hxq
      have rest : (rows.map fun y => if y.id = x.id then f y else y) = rows :=
        (List.map_congr_left fun y hy => if_neg (hx y hy)).trans (List.map_id' rows)
      simp only [List.map_cons, if_true, rest, List.sum_cons]
      omega
    · have hq' : q ∈ rows := by
        rcases List.mem_cons.1 hq with rfl | hq'
        · exact absurd rfl h
        · exact hq'
      have := ih (List.nodup_cons.1 hn).2 hq'
      simp only [List.map_cons, h, if_false, List.sum_cons]
      omega

/-- A sum is not changed by leaving out what contributes nothing. -/
theorem sum_map_filter {rows : List (Query S)} {keep : Query S → Bool} {w : Query S → Nat}
    (h : ∀ x ∈ rows, keep x = false → w x = 0) : ((rows.filter keep).map w).sum = (rows.map w).sum := by
  induction rows with
  | nil => rfl
  | cons x rows ih =>
    have ih := ih fun y hy => h y (List.mem_cons_of_mem x hy)
    cases hk : keep x with
    | true => simp [hk, ih]
    | false => simp [hk, ih, h x List.mem_cons_self hk]

/-- Every query on record has a number of its own, which was given out. -/
structure QueryTable.Numbered (t : QueryTable S) : Prop where
  nodup : (t.rows.map (·.id)).Nodup
  below : ∀ q ∈ t.rows, q.id.number < t.next

/-- The number that is given out next is new. -/
theorem QueryTable.Numbered.next_not_mem {t : QueryTable S} (h : t.Numbered) :
    (⟨t.next⟩ : QueryId) ∉ t.rows.map (·.id) := by
  intro hmem
  obtain ⟨q, hq, hid⟩ := List.mem_map.1 hmem
  have hbelow := h.below q hq
  rw [hid] at hbelow
  exact Nat.lt_irrefl _ hbelow

theorem QueryTable.mem_of_find? {t : QueryTable S} {id : QueryId} {q : Query S} (h : t.find? id = some q) :
    q ∈ t.rows ∧ q.id = id := by
  have h : t.rows.find? (fun x => decide (x.id = id)) = some q := h
  have hid := List.find?_some h
  exact ⟨List.mem_of_find?_eq_some h, of_decide_eq_true hid⟩

theorem SessionTable.mem_of_find? {t : SessionTable S} {id : SessionId} {s : Session S} (h : t.find? id = some s) :
    s ∈ t.rows ∧ s.id = id := by
  have h : t.rows.find? (fun x => decide (x.id = id)) = some s := h
  have hid := List.find?_some h
  exact ⟨List.mem_of_find?_eq_some h, of_decide_eq_true hid⟩

/-- A change of a session is found where the session is. -/
theorem SessionTable.find?_update (t : SessionTable S) (id id' : SessionId) {f : Session S → Session S}
    (hf : ∀ s, (f s).id = s.id) :
    (t.update id f).find? id' = (t.find? id').map fun s => if s.id = id then f s else s := by
  have hid : ∀ s : Session S, (if s.id = id then f s else s).id = s.id := by
    intro s
    split
    · exact hf s
    · rfl
  simp only [find?, update, List.find?_map, Function.comp_def, hid]

theorem QueryTable.Numbered.find? {t : QueryTable S} (h : t.Numbered) {q : Query S} (hq : q ∈ t.rows) :
    t.find? q.id = some q := by
  cases hf : t.find? q.id with
  | none => exact absurd (List.find?_eq_none.1 hf q hq) (by simp)
  | some x =>
    obtain ⟨hx, hid⟩ := mem_of_find? hf
    rw [eq_of_mem_of_id_eq h.nodup hx hq hid]

theorem QueryTable.mem_update {t : QueryTable S} {q : Query S} (hq : q ∈ t.rows) (f : Query S → Query S) :
    f q ∈ (t.update q.id f).rows :=
  List.mem_map.2 ⟨q, hq, if_pos rfl⟩

namespace Entry

theorem keeps_of_not_purged {e : Entry S} (h : ∀ asOf retention, e ≠ .purged asOf retention) (x : Query S) :
    e.keeps x = true := by
  cases e with
  | purged asOf retention => exact absurd rfl (h asOf retention)
  | _ => rfl

theorem onRow_id (e : Entry S) (x : Query S) : (e.onRow x).id = x.id := by
  cases e <;> simp only [onRow] <;> split <;> simp_all

end Entry

namespace Ledger

theorem mem_rows_post {L : Ledger S} {e : Entry S} {r' : Query S} (h : r' ∈ (L.post e).queries.rows) :
    (∃ r ∈ L.queries.rows, e.keeps r = true ∧ e.onRow r = r') ∨ e = .reserved r' := by
  rw [rows_post] at h
  rcases List.mem_append.1 h with h | h
  · obtain ⟨r, hr, rfl⟩ := List.mem_map.1 h
    obtain ⟨hr, hk⟩ := List.mem_filter.1 hr
    exact .inl ⟨r, hr, hk, rfl⟩
  · cases e with
    | reserved q =>
      have : r' = q := by simpa [Entry.fresh] using h
      exact .inr (this ▸ rfl)
    | _ => simp [Entry.fresh] at h

theorem mem_rows_of_keeps {L : Ledger S} {e : Entry S} {x : Query S} (hk : e.keeps x = true)
    (hx : x ∈ L.queries.rows) : e.onRow x ∈ (L.post e).queries.rows := by
  rw [rows_post]
  exact List.mem_append_left _ (List.mem_map_of_mem (List.mem_filter.2 ⟨hx, hk⟩))

/-- What an entry makes of a query on record, every case by what it writes. -/
theorem turns_onRow {L : Ledger S} (hn : L.queries.Numbered) {e : Entry S} (ha : L.Allows e) {x : Query S}
    (hx : x ∈ L.queries.rows) : x.Turns e (e.onRow x) := by
  have same : ∀ {q : Query S}, q ∈ L.queries.rows → x.id = q.id → x = q := fun hq h =>
    eq_of_mem_of_id_eq hn.nodup hx hq h
  cases e with
  | completed client p =>
    simp only [Entry.onRow]
    split
    · next hid => exact .completed hid
    · exact .same _
  | priced q cost =>
    simp only [Entry.onRow]
    split
    · next hid =>
      obtain rfl := same ha.1 hid
      exact .priced cost
    · exact .same _
  | released q =>
    simp only [Entry.onRow]
    split
    · next hid =>
      obtain rfl := same ha.1 hid
      exact .released
    · exact .same _
  | charged q cost =>
    simp only [Entry.onRow]
    split
    · next hid =>
      obtain rfl := same ha.1 hid
      exact .charged cost
    · exact .same _
  | settled q receipt time =>
    simp only [Entry.onRow]
    split
    · next hid =>
      obtain rfl := same ha.1 hid
      exact .settled receipt time
    · exact .same _
  | aborted q forced time =>
    simp only [Entry.onRow]
    split
    · next hid =>
      obtain rfl := same ha.1 hid
      exact .aborted forced time
    · exact .same _
  | _ => exact .same _

/-- An entry moves a query only forwards. -/
theorem becomes_onRow {L : Ledger S} (hn : L.queries.Numbered) {e : Entry S} (ha : L.Allows e) {x : Query S}
    (hx : x ∈ L.queries.rows) : x.Becomes (e.onRow x) := by
  have ht := turns_onRow hn ha hx
  generalize e.onRow x = y at ht ⊢
  cases ht with
  | same => exact .refl x
  | completed => exact { Query.Becomes.refl x with consumed := List.prefix_append .. }
  | priced => exact { Query.Becomes.refl x with actual := .inl ha.2.2 }
  | released => exact { Query.Becomes.refl x with released := fun _ => rfl }
  | charged => exact { Query.Becomes.refl x with charged := fun _ => rfl }
  | settled =>
    exact { Query.Becomes.refl x with
      locked := fun h => by cases h
      final := fun h => absurd ha.2.1 h }
  | aborted =>
    exact { Query.Becomes.refl x with
      locked := fun h => by cases h
      final := fun h => absurd ha.2.1 h }

/-! ## Rows along a trail -/

theorem numbered_post {L : Ledger S} (h : L.queries.Numbered) {e : Entry S} (ha : L.Allows e) :
    (L.post e).queries.Numbered := by
  have kept : ((L.queries.rows.filter fun x => e.keeps x).map (fun x => e.onRow x)).map (·.id) =
      (L.queries.rows.filter fun x => e.keeps x).map (·.id) := by
    simp only [List.map_map]
    exact List.map_congr_left fun x _ => e.onRow_id x
  have hnodup : ((L.queries.rows.filter fun x => e.keeps x).map (·.id)).Nodup :=
    h.nodup.sublist (List.filter_sublist.map _)
  constructor
  · rw [rows_post, List.map_append, kept]
    cases e with
    | reserved q =>
      -- the new row has the number that is given out next
      refine List.nodup_append.2 ⟨hnodup, by simp [Entry.fresh], ?_⟩
      intro a hq b hb
      obtain ⟨x, hx, rfl⟩ := List.mem_map.1 hq
      have hbelow := h.below x (List.mem_filter.1 hx).1
      have hb : b = q.id := by simpa [Entry.fresh] using hb
      intro e
      rw [e, hb, ha.1] at hbelow
      omega
    | _ => simpa [Entry.fresh] using hnodup
  · intro r' hr'
    rcases mem_rows_post hr' with ⟨r, hr, -, rfl⟩ | rfl
    · rw [e.onRow_id]
      exact Nat.lt_of_lt_of_le (h.below r hr) (next_post L e)
    · rw [ha.1]
      simp [post, QueryTable.insert, QueryTable.allocate]

theorem Trail.numbered {allowed : Entry S → Prop} {L M : Ledger S} (h : Trail allowed L M)
    (hL : L.queries.Numbered) : M.queries.Numbered := by
  induction h with
  | refl => exact hL
  | tail _ hstep ih =>
    rcases hstep with ⟨e, -, ha, rfl⟩
    exact numbered_post ih ha

theorem Trail.next_le {allowed : Entry S → Prop} {L M : Ledger S} (h : Trail allowed L M) :
    L.queries.next ≤ M.queries.next := by
  induction h with
  | refl => exact Nat.le_refl _
  | tail _ hstep ih =>
    rcases hstep with ⟨e, -, -, rfl⟩
    exact Nat.le_trans ih (next_post _ e)

section Along

variable {allowed : Entry S → Prop} {P : Query S → Query S → Prop} {L M : Ledger S}

/-- Where every query on record at the end of a trail comes from; how it differs from what it was is told by a
relation that holds across every entry that may be written. -/
theorem Trail.origin (hrefl : ∀ q, P q q)
    (htrans : ∀ {x y z : Query S}, x.Becomes y → y.Becomes z → P x y → P y z → P x z)
    (hstep : ∀ {L : Ledger S} {e x}, allowed e → L.Allows e → L.queries.Numbered → x ∈ L.queries.rows →
      P x (e.onRow x))
    (h : Trail allowed L M) (hL : L.queries.Numbered) {r' : Query S} (hr' : r' ∈ M.queries.rows) :
    (∃ r ∈ L.queries.rows, r.Becomes r' ∧ P r r') ∨
      ∃ N q, allowed (.reserved q) ∧ Ledger.Allows N (.reserved q) ∧ L.queries.next ≤ q.id.number ∧
        q.Becomes r' ∧ P q r' := by
  induction h generalizing r' with
  | refl => exact .inl ⟨r', hr', .refl r', hrefl r'⟩
  | tail hpath hpost ih =>
    rename_i M N
    rcases hpost with ⟨e, he, ha, rfl⟩
    have hM := Trail.numbered hpath hL
    rcases mem_rows_post hr' with ⟨r, hr, -, rfl⟩ | rfl
    · -- it was there before the entry, so the trail up to the entry tells where it comes from
      have hb := becomes_onRow hM ha hr
      have hP := hstep he ha hM hr
      rcases ih hr with ⟨r₀, hr₀, hb₀, hP₀⟩ | ⟨K, q, hq, hqa, hle, hb₀, hP₀⟩
      · exact .inl ⟨r₀, hr₀, hb₀.trans hb, htrans hb₀ hb hP₀ hP⟩
      · exact .inr ⟨K, q, hq, hqa, hle, hb₀.trans hb, htrans hb₀ hb hP₀ hP⟩
    · exact .inr ⟨M, r', he, ha, ha.1 ▸ Trail.next_le hpath, .refl r', hrefl r'⟩

/-- Queries stay on record as long as nothing is forgotten. -/
theorem Trail.persists (hrefl : ∀ q, P q q)
    (htrans : ∀ {x y z : Query S}, x.Becomes y → y.Becomes z → P x y → P y z → P x z)
    (hstep : ∀ {L : Ledger S} {e x}, allowed e → L.Allows e → L.queries.Numbered → x ∈ L.queries.rows →
      P x (e.onRow x))
    (hkeep : ∀ e x, allowed e → e.keeps x = true) (h : Trail allowed L M) (hL : L.queries.Numbered)
    {r : Query S} (hr : r ∈ L.queries.rows) : ∃ r' ∈ M.queries.rows, r.Becomes r' ∧ P r r' := by
  induction h with
  | refl => exact ⟨r, hr, .refl r, hrefl r⟩
  | tail hpath hpost ih =>
    rcases hpost with ⟨e, he, ha, rfl⟩
    obtain ⟨x, hx, hb, hP⟩ := ih
    have hM := Trail.numbered hpath hL
    have hx' := becomes_onRow hM ha hx
    exact ⟨e.onRow x, mem_rows_of_keeps (hkeep e x he) hx, hb.trans hx', htrans hb hx' hP (hstep he ha hM hx)⟩

theorem Trail.comes_from (h : Trail allowed L M) (hL : L.queries.Numbered) {r' : Query S}
    (hr' : r' ∈ M.queries.rows) :
    (∃ r ∈ L.queries.rows, r.Becomes r') ∨
      ∃ q, allowed (.reserved q) ∧ L.queries.next ≤ q.id.number ∧ q.Becomes r' := by
  rcases Trail.origin (P := fun _ _ => True) (fun _ => trivial) (fun _ _ _ _ => trivial)
      (fun _ _ _ _ => trivial) h hL hr'
    with ⟨q, hq, hb, -⟩ | ⟨_, q, hq, -, hle, hb, -⟩
  · exact .inl ⟨q, hq, hb⟩
  · exact .inr ⟨q, hq, hle, hb⟩

theorem Trail.goes_on (h : Trail allowed L M) (hL : L.queries.Numbered)
    (hkeep : ∀ e x, allowed e → e.keeps x = true) {r : Query S} (hr : r ∈ L.queries.rows) :
    ∃ r' ∈ M.queries.rows, r.Becomes r' := by
  obtain ⟨r', hr', hb, -⟩ := Trail.persists (P := fun _ _ => True) (fun _ => trivial)
    (fun _ _ _ _ => trivial) (fun _ _ _ _ => trivial) hkeep h hL hr
  exact ⟨r', hr', hb⟩

end Along

end Ledger
end VoucherGateway
