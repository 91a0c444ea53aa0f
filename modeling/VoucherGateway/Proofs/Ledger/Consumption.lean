import Mathlib.Data.List.Flatten
import VoucherGateway.Proofs.Ledger.Preservation

/-!
# Consumption — which queries used up which vouchers

The voucher of a completed spend is noted with the query that it was begun for, if that is still on record.
It is newer than everything handed over before, so no voucher is noted twice, and every query lists its
vouchers oldest first.
-/

namespace VoucherGateway

variable {S : Scheme}

namespace Ledger

/-- Vouchers that queries used up were handed over, and none was used up twice.  What the queries used up that
are no longer on record is given. -/
structure Consumed (L : Ledger S) (forgotten : List (VoucherId S)) : Prop where
  nodup : (forgotten ++ L.queries.rows.flatMap (·.consumed)).Nodup
  gone : ∀ id ∈ forgotten, ∃ c, ∃ v ∈ L.handed c, v.id = id
  handed : ∀ q ∈ L.queries.rows, ∀ id ∈ q.consumed, ∃ v ∈ L.handed q.client, v.id = id
  ascending : ∀ q ∈ L.queries.rows, q.consumed.Pairwise fun a b => a.nonce < b.nonce

variable {L : Ledger S} {e : Entry S} {forgotten : List (VoucherId S)}

theorem Sound.mem_handed (h : L.Sound) {c : S.Party} {v : Voucher S} (hv : v ∈ L.handed c) : v.client = c :=
  (h.parties c v ((List.prefix_append _ _).trans (h.handed c) |>.subset hv)).1

/-- What is handed over stays handed over. -/
theorem Sound.handed_prefix_post (h : L.Sound) (ha : L.Allows e) (c : S.Party) :
    L.handed c <+: (L.post e).handed c := by
  rw [h.handed_post ha]
  cases e with
  | completed client p =>
    dsimp only
    split
    · exact List.prefix_append ..
    · exact List.prefix_rfl
  | _ => exact List.prefix_rfl

theorem Sound.handed_prefix_trail {allowed : Entry S → Prop} {M : Ledger S} (h : L.Sound)
    (ht : Trail allowed L M) (c : S.Party) : L.handed c <+: M.handed c := by
  induction ht with
  | refl => exact List.prefix_rfl
  | tail hpath hstep ih =>
    rcases hstep with ⟨e, -, ha, rfl⟩
    exact ih.trans ((h.trail hpath).handed_prefix_post ha c)

/-- The voucher of a spend under way is newer than everything handed over. -/
theorem Sound.handed_older (h : L.Sound) {client : S.Party} {p : PendingSpend S}
    (hp : L.pending client = some p) {v : Voucher S} (hv : v ∈ L.handed client) :
    v.nonce < p.voucher.nonce := by
  have hpre := h.handed client
  rw [hp] at hpre
  exact h.handed_lt hpre v hv

theorem Sound.handed_ne (h : L.Sound) {client : S.Party} {p : PendingSpend S} (hp : L.pending client = some p)
    {c : S.Party} {v : Voucher S} (hv : v ∈ L.handed c) : v.id ≠ p.voucher.id := by
  intro hid
  have hclient : v.client = p.voucher.client := congrArg VoucherId.client hid
  have hnonce : v.nonce = p.voucher.nonce := congrArg VoucherId.nonce hid
  rw [h.mem_handed hv, (h.pending_parties hp).1] at hclient
  have hlt := h.handed_older hp (hclient ▸ hv)
  rw [hnonce] at hlt
  exact absurd hlt (UInt64.lt_irrefl _)

/-- An entry adds to what a query used up only the voucher of a spend that it completes. -/
theorem Sound.consumed_onRow (h : L.Sound) (ha : L.Allows e) {x : Query S} (hx : x ∈ L.queries.rows) :
    (e.onRow x).consumed = x.consumed ∨ ∃ client p, e = .completed client p ∧ p.query = some x.id ∧
      (e.onRow x).consumed = x.consumed ++ [p.voucher.id] := by
  have ht := turns_onRow h.numbered ha hx
  generalize e.onRow x = y at ht ⊢
  cases ht with
  | @completed client p served => exact .inr ⟨client, p, rfl, served, rfl⟩
  | _ => exact .inl rfl

/-! ## An entry -/

/-- What one query uses up is added to what all of them used up. -/
theorem flatMap_consumed_update {rows : List (Query S)} (hn : (rows.map (·.id)).Nodup) {q : Query S}
    (hq : q ∈ rows) (ids : List (VoucherId S)) :
    ((rows.map fun x => if x.id = q.id then { x with consumed := x.consumed ++ ids } else x).flatMap
      (·.consumed)).Perm (rows.flatMap (·.consumed) ++ ids) := by
  -- counting reduces it to the sum over rows of which one changes
  refine List.perm_iff_count.2 fun id => ?_
  have hsum := sum_map_update hn hq (fun x => { x with consumed := x.consumed ++ ids })
    fun x => x.consumed.count id
  rw [List.count_append, List.count_flatMap, List.count_flatMap]
  simp only [List.count_append] at hsum
  simp only [Function.comp_def]
  omega

/-- An entry that completes no spend of a query on record uses up nothing. -/
theorem Sound.flatMap_consumed_sublist (h : L.Sound) (ha : L.Allows e)
    (hnone : ∀ client p, e = .completed client p → ∀ x ∈ L.queries.rows, p.query ≠ some x.id) :
    ((L.post e).queries.rows.flatMap (·.consumed)).Sublist (L.queries.rows.flatMap (·.consumed)) := by
  have hfresh : e.fresh.flatMap (·.consumed) = [] := by
    cases e with
    | reserved q => simp [Entry.fresh, ha.2.2.2.2.2.1]
    | _ => rfl
  have hrows : ((L.queries.rows.filter fun x => e.keeps x).map fun x => e.onRow x).flatMap (·.consumed) =
      (L.queries.rows.filter fun x => e.keeps x).flatMap (·.consumed) := by
    rw [List.flatMap_map]
    refine List.flatMap_congr fun x hx => ?_
    have hx := (List.mem_filter.1 hx).1
    rcases h.consumed_onRow ha hx with hsame | ⟨client, p, he, hq, -⟩
    · exact hsame
    · exact absurd hq (hnone client p he x hx)
  rw [rows_post, List.flatMap_append, hrows, hfresh, List.append_nil]
  exact List.filter_sublist.flatMap _

namespace Consumed

theorem nodup_post (h : L.Consumed forgotten) (hL : L.Sound) (ha : L.Allows e) :
    (forgotten ++ (L.post e).queries.rows.flatMap (·.consumed)).Nodup := by
  by_cases hspend : ∃ client p, e = .completed client p ∧ ∃ q ∈ L.queries.rows, p.query = some q.id
  · obtain ⟨client, p, rfl, q, hq, hserved⟩ := hspend
    have hrows : (L.post (.completed client p)).queries.rows =
        L.queries.rows.map fun x =>
          if x.id = q.id then { x with consumed := x.consumed ++ [p.voucher.id] } else x := by
      simp only [Ledger.post, hserved]
      rfl
    -- all that was used up was handed over, the voucher of a spend under way was not
    have hnew : p.voucher.id ∉ forgotten ++ L.queries.rows.flatMap (·.consumed) := by
      intro hin
      have hhanded : ∃ c, ∃ v ∈ L.handed c, v.id = p.voucher.id := by
        rcases List.mem_append.1 hin with hin | hin
        · exact h.gone _ hin
        · obtain ⟨x, hx, hin⟩ := List.mem_flatMap.1 hin
          exact ⟨x.client, h.handed x hx _ hin⟩
      obtain ⟨c, v, hv, hid⟩ := hhanded
      exact hL.handed_ne ha.1 hv hid
    have hperm := flatMap_consumed_update hL.numbered.nodup hq [p.voucher.id]
    rw [hrows, (hperm.append_left forgotten).nodup_iff, ← List.append_assoc]
    refine List.nodup_append.2 ⟨h.nodup, List.nodup_singleton _, ?_⟩
    rintro a hin b hb rfl
    obtain rfl := List.mem_singleton.1 hb
    exact hnew hin
  · have hsub := hL.flatMap_consumed_sublist ha fun client p he x hx hq => hspend ⟨client, p, he, x, hx, hq⟩
    exact h.nodup.sublist (hsub.append_left forgotten)

/-- An entry that may be written keeps consumption in order. -/
theorem post (h : L.Consumed forgotten) (hL : L.Sound) (ha : L.Allows e) : (L.post e).Consumed forgotten := by
  have kept : ∀ {c : S.Party} {id : VoucherId S}, (∃ v ∈ L.handed c, v.id = id) →
      ∃ v ∈ (L.post e).handed c, v.id = id := by
    rintro c id ⟨v, hv, hid⟩
    exact ⟨v, (hL.handed_prefix_post ha c).subset hv, hid⟩
  refine ⟨h.nodup_post hL ha, fun id hid => (h.gone id hid).imp fun _ => kept, ?_, ?_⟩
  · intro q' hq' id hid
    rcases mem_rows_post hq' with ⟨q, hq, -, rfl⟩ | rfl
    · rw [(becomes_onRow hL.numbered ha hq).client]
      rcases hL.consumed_onRow ha hq with hsame | ⟨client, p, rfl, hserved, hadded⟩
      · exact kept (h.handed q hq id (hsame ▸ hid))
      · rw [hadded] at hid
        rcases List.mem_append.1 hid with hid | hid
        · exact kept (h.handed q hq id hid)
        · -- the voucher that is used up now is handed over by the same entry
          obtain rfl := List.mem_singleton.1 hid
          have hclient := ((hL.serves client p q.id ha.1 hserved).2 q hq rfl).1
          have hhanded := hL.handed_post ha q.client
          simp only [hclient, if_true] at hhanded
          rw [hclient, hhanded]
          exact ⟨p.voucher, List.mem_append_right _ (List.mem_singleton_self _), rfl⟩
    · rw [ha.2.2.2.2.2.1] at hid
      cases hid
  · intro q' hq'
    rcases mem_rows_post hq' with ⟨q, hq, -, rfl⟩ | rfl
    · rcases hL.consumed_onRow ha hq with hsame | ⟨client, p, rfl, hserved, hadded⟩
      · rw [hsame]
        exact h.ascending q hq
      · have hclient := ((hL.serves client p q.id ha.1 hserved).2 q hq rfl).1
        rw [hadded]
        refine List.pairwise_append.2 ⟨h.ascending q hq, List.pairwise_singleton _ _, ?_⟩
        intro a hin b hb
        obtain rfl := List.mem_singleton.1 hb
        obtain ⟨v, hv, rfl⟩ := h.handed q hq a hin
        rw [hclient] at hv
        exact hL.handed_older ha.1 hv
    · rw [ha.2.2.2.2.2.1]
      exact List.Pairwise.nil

theorem trail {allowed : Entry S → Prop} {M : Ledger S} (h : L.Consumed forgotten) (hL : L.Sound)
    (ht : Trail allowed L M) : M.Consumed forgotten := by
  induction ht with
  | refl => exact h
  | tail hpath hstep ih =>
    rcases hstep with ⟨e, -, ha, rfl⟩
    exact ih.post (hL.trail hpath) ha

end Consumed
end Ledger
end VoucherGateway
