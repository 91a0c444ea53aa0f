import VoucherGateway.Proofs.Ledger.Sound

/-!
# Preservation — every entry keeps a ledger sound

First what an entry does to each part of a ledger that soundness speaks of, then every clause of soundness by
itself.  Main statements: every entry that may be written keeps a ledger sound (`Sound.post`), and so does
every trail (`Sound.trail`).
-/

namespace VoucherGateway

variable {S : Scheme}

namespace Ledger

variable {L : Ledger S} {c : S.Party}

/-! ## What an entry does to each part -/

theorem pending_post (e : Entry S) (c : S.Party) : (L.post e).pending c =
    match e with
    | .begun client v query => if c = client then some { voucher := v, query := query } else L.pending c
    | .marked client _ =>
      if c = client then (L.pending client).map fun p => { p with marked := true } else L.pending c
    | .completed client _ => if c = client then none else L.pending c
    | _ => L.pending c := by
  cases e with
  | begun client v query => exact Table.get?_put ..
  | marked client p => exact Table.get?_modify ..
  | completed client p => exact Table.get?_erase ..
  | _ => rfl

theorem Sound.chain_post (h : L.Sound) {e : Entry S} (ha : L.Allows e) (c : S.Party) :
    (L.post e).chain c =
    match e with
    | .recorded v =>
      if c = v.client then { L.chain c with vouchers := (L.chain c).vouchers ++ [v] } else L.chain c
    | .marked client p =>
      if c = client then { L.chain c with spent := (L.chain c).spent ++ [p.voucher.nonce] } else L.chain c
    | _ => L.chain c := by
  cases e with
  | recorded v =>
    have hv : v.vendor = L.vendor := ha.1
    simp only [chain, post, Table.get?_put, Prod.mk.injEq, hv, and_true]
    split <;> simp_all
  | marked client p =>
    obtain ⟨hc, hv⟩ := h.pending_parties ha.1
    simp only [chain, post, Table.get?_put, Prod.mk.injEq, hc, hv, and_true]
    split <;> simp_all
  | _ => rfl

theorem Sound.queue_post (h : L.Sound) {e : Entry S} (ha : L.Allows e) (c : S.Party) :
    (L.post e).settlement.of c =
    match e with
    | .completed client p =>
      if c = client then
        { L.settlement.of c with unsettled := (L.settlement.of c).unsettled ++ [p.voucher] }
      else L.settlement.of c
    | .batched client d => if c = client then d else L.settlement.of c
    | _ => L.settlement.of c := by
  cases e with
  | completed client p =>
    obtain ⟨hc, -⟩ := h.pending_parties ha.1
    have hpre := h.handed client
    rw [ha.1] at hpre
    -- the queue takes nothing that is not newer than all it has
    have hpush := congrArg Prod.snd (ClientSettlement.push_of_newer (h.handed_lt hpre))
    have hpart : (L.post (.completed client p)).settlement = (L.settlement.push p.voucher).2 := rfl
    simp only [hpart, Settlement.push, Settlement.of_put, hc]
    split
    · next hcc => exact hcc ▸ hpush
    · rfl
  | batched client d => exact Settlement.of_put ..
  | _ => rfl

theorem Sound.handed_post (h : L.Sound) {e : Entry S} (ha : L.Allows e) (c : S.Party) :
    (L.post e).handed c =
    match e with
    | .completed client p => if c = client then L.handed c ++ [p.voucher] else L.handed c
    | _ => L.handed c := by
  unfold Ledger.handed
  rw [h.queue_post ha]
  cases e with
  | completed client p =>
    dsimp only
    split
    · exact (List.append_assoc ..).symm
    · rfl
  | batched client d =>
    have hd : d.handed = L.handed client := ha
    dsimp only
    split
    · next hcc => rw [hcc]; exact hd
    · rfl
  | _ => rfl

theorem unmarkedOf_post (e : Entry S) (c : S.Party) : (L.post e).unmarkedOf c =
    match e with
    | .completed client p => if c = client then L.unmarkedOf c - p.voucher.atoms else L.unmarkedOf c
    | .charged q cost => if c = q.client then L.unmarkedOf c + cost else L.unmarkedOf c
    | _ => L.unmarkedOf c := by
  cases e with
  | completed client p =>
    simp only [unmarkedOf, post, Table.get?_put]
    split <;> simp_all
  | charged q cost =>
    by_cases hpos : 0 < cost
    · simp only [unmarkedOf, post, hpos, if_true, Table.get?_put]
      split <;> simp_all
    · have hzero : cost = 0 := by simpa using hpos
      simp [unmarkedOf, post, hzero]
  | _ => rfl

theorem lockedOf_post (e : Entry S) (c : S.Party) : (L.post e).lockedOf c =
    match e with
    | .reserved q => if c = q.client then L.lockedOf c + q.estimated else L.lockedOf c
    | .released q => if c = q.client then L.lockedOf c - q.estimated else L.lockedOf c
    | _ => L.lockedOf c := by
  cases e with
  | reserved q =>
    simp only [lockedOf, post, Table.get?_put]
    split <;> simp_all
  | released q =>
    simp only [lockedOf, post, Table.get?_put]
    split <;> simp_all
  | _ => rfl

/-! ## Queries on record -/

theorem Sound.onRow (h : L.Sound) {e : Entry S} (ha : L.Allows e) {x : Query S}
    (hx : x ∈ L.queries.rows) : (e.onRow x).Sound := by
  have hs := h.rows x hx
  have unsettled : x.state = .locked → ∀ r, x.receipt ≠ some r := by
    intro hl r hr
    have hset := hs.receipt_iff.1 (Option.isSome_of_mem hr)
    rw [hl] at hset
    cases hset
  have ht := turns_onRow h.numbered ha hx
  generalize e.onRow x = y at ht ⊢
  cases ht with
  | same => exact hs
  | @completed client p served =>
    refine { hs with receipt_consumed := ?_ }
    -- a receipt copies the list, so it must not grow any more
    intro r hr
    have hset := hs.receipt_iff.1 (Option.isSome_of_mem hr)
    exact absurd hset ((h.serves client p x.id ha.1 served).2 x hx rfl).2
  | priced =>
    exact { hs with
      charged_priced := fun _ => rfl
      receipt_actual := fun r hr => absurd hr (unsettled ha.2.1 r) }
  | released => exact { hs with final_released := fun _ => rfl, charged_released := fun _ => rfl }
  | charged cost =>
    exact { hs with
      charged_released := fun _ => ha.2.2.1
      charged_priced := fun _ => by simp [ha.2.2.2.2.1]
      settled_charged := fun _ => rfl }
  | settled receipt time =>
    obtain ⟨-, -, hrel, hch, -, hact, hcons⟩ := ha
    exact { hs with
      begun := by simp
      final_released := fun _ => hrel
      settled_charged := fun _ => hch
      receipt_iff := by simp
      receipt_consumed := fun r hr => by cases hr; exact hcons
      receipt_actual := fun r hr => by cases hr; exact hact
      finished_iff := by simp }
  | aborted =>
    have hnone : x.receipt = none := Option.eq_none_iff_forall_ne_some.2 (unsettled ha.2.1)
    exact { hs with
      begun := by simp
      final_released := fun _ => ha.2.2
      settled_charged := fun h => by cases h
      receipt_iff := by simp [hnone]
      finished_iff := by simp }

/-- What a query contributes to the locked cost changes only when its estimate is unlocked. -/
theorem Sound.heldFor_onRow (h : L.Sound) {e : Entry S} (ha : L.Allows e) {x : Query S}
    (hx : x ∈ L.queries.rows) (hne : ∀ q, e ≠ .released q) : (e.onRow x).heldFor c = x.heldFor c := by
  have ht := turns_onRow h.numbered ha hx
  generalize e.onRow x = y at ht ⊢
  cases ht with
  | released => exact absurd rfl (hne x)
  | settled => simp [Query.heldFor, Query.holds, ha.2.2.1]
  | aborted => simp [Query.heldFor, Query.holds, ha.2.2]
  | _ => rfl

/-- Whoever a number serves, it serves after any entry, as long as their spend is not complete. -/
theorem Sound.serves_post (h : L.Sound) {e : Entry S} (ha : L.Allows e) {id : QueryId}
    (hs : L.Serves c id) (hp : L.pending c ≠ none) : (L.post e).Serves c id := by
  refine ⟨Nat.lt_of_lt_of_le hs.1 (next_post L e), ?_⟩
  intro q' hq' hid
  rcases mem_rows_post hq' with ⟨r, hr, -, rfl⟩ | rfl
  · have hb := becomes_onRow h.numbered ha hr
    obtain ⟨hc, hst⟩ := hs.2 r hr (hb.id.symm.trans hid)
    refine ⟨hb.client.trans hc, ?_⟩
    have ht := turns_onRow h.numbered ha hr
    generalize e.onRow r = y at ht ⊢
    cases ht with
    -- nothing is settled before the spends of its client are complete
    | settled => exact absurd (hc ▸ ha.2.2.2.2.1) hp
    | aborted => simp
    | _ => exact hst
  · have hlt := hs.1
    rw [← hid, ha.1] at hlt
    exact absurd hlt (Nat.lt_irrefl _)

/-! ## Every entry keeps a ledger sound -/

theorem Sound.nonces_post (h : L.Sound) {e : Entry S} (ha : L.Allows e) (c : S.Party) :
    ((L.post e).chain c).vouchers.map (·.nonce.toNat) =
      List.range' (L.genesis.toNat + 1) ((L.post e).chain c).vouchers.length := by
  have hc := h.nonces c
  rw [h.chain_post ha]
  cases e with
  | recorded v =>
    dsimp only
    split
    · next hv =>
      -- the next nonce extends the range by one
      have hn := ha.2
      rw [← hv] at hn
      simp only [List.map_append, List.length_append, hc, List.map_cons, List.map_nil, List.length_singleton,
        List.range'_concat, hn, Nat.one_mul]
    · exact hc
  | marked client p =>
    dsimp only
    split <;> exact hc
  | _ => exact hc

theorem Sound.parties_post (h : L.Sound) {e : Entry S} (ha : L.Allows e) (c : S.Party) :
    ∀ v ∈ ((L.post e).chain c).vouchers, v.client = c ∧ v.vendor = L.vendor := by
  have hc := h.parties c
  rw [h.chain_post ha]
  cases e with
  | recorded v =>
    dsimp only
    split
    · next hv =>
      intro w hw
      rcases List.mem_append.1 hw with hw | hw
      · exact hc w hw
      · rw [List.mem_singleton.1 hw]
        exact ⟨hv.symm, ha.1⟩
    · exact hc
  | marked client p =>
    dsimp only
    split <;> exact hc
  | _ => exact hc

/-- The spend under way moves along: its voucher is behind those handed over, then one of them. -/
theorem Sound.order_post (h : L.Sound) {e : Entry S} (ha : L.Allows e) (c : S.Party) :
    (L.post e).handed c ++ (((L.post e).pending c).map (·.voucher)).toList <+:
      ((L.post e).chain c).vouchers := by
  have hc := h.handed c
  rw [h.handed_post ha, pending_post, h.chain_post ha]
  cases e with
  | recorded v =>
    dsimp only
    split
    · exact hc.trans (List.prefix_append ..)
    · exact hc
  | begun client v query =>
    dsimp only
    split
    · next he =>
      rw [he]
      exact ha.2.1
    · exact hc
  | marked client p =>
    dsimp only
    split
    · next he =>
      subst he
      rw [Option.map_map]
      exact hc
    · exact hc
  | completed client p =>
    dsimp only
    split
    · next he =>
      subst he
      rw [ha.1] at hc
      simpa using hc
    · exact hc
  | _ => exact hc

theorem Sound.spent_post (h : L.Sound) {e : Entry S} (ha : L.Allows e) (c : S.Party) :
    ((L.post e).chain c).spent =
      ((L.post e).handed c ++ ((L.post e).unreduced c).toList).map (·.nonce) := by
  have hc := h.spent c
  unfold unreduced at hc ⊢
  rw [h.handed_post ha, pending_post, h.chain_post ha]
  cases e with
  | recorded v =>
    dsimp only
    split <;> exact hc
  | begun client v query =>
    dsimp only
    split
    · next he =>
      subst he
      rw [ha.1] at hc
      simpa [Option.filter_some] using hc
    · exact hc
  | marked client p =>
    dsimp only
    split
    · next he =>
      subst he
      rw [ha.1] at hc ⊢
      -- the mark turns the spend into an unreduced one, so both sides grow by its nonce
      simp only [hc, Option.map_some, Option.filter_some, ha.2, if_true]
      simp
    · exact hc
  | completed client p =>
    dsimp only
    split
    · next he =>
      subst he
      rw [ha.1] at hc
      simpa [Option.filter_some, ha.2] using hc
    · exact hc
  | _ => exact hc

theorem Sound.covered_post (h : L.Sound) {e : Entry S} (ha : L.Allows e) (c : S.Party)
    (p : PendingSpend S) (hp : (L.post e).pending c = some p) :
    p.voucher.atoms ≤ (L.post e).unmarkedOf c := by
  have hc := h.covered c
  rw [pending_post] at hp
  rw [unmarkedOf_post]
  cases e with
  | begun client v query =>
    dsimp only at hp
    split at hp
    · next he =>
      obtain rfl := Option.some.inj hp
      rw [he]
      exact ha.2.2.1
    · exact hc p hp
  | marked client p' =>
    dsimp only at hp
    split at hp
    · next he =>
      subst he
      obtain ⟨p₀, hp₀, rfl⟩ := Option.map_eq_some_iff.1 hp
      exact hc p₀ hp₀
    · exact hc p hp
  | completed client p' =>
    dsimp only at hp ⊢
    split at hp
    · cases hp
    · next he =>
      rw [if_neg he]
      exact hc p hp
  | charged q cost =>
    -- a charge that fits only raises the unmarked cost
    have hle := UInt64.le_iff_toNat_le.1 (hc p hp)
    dsimp only
    split
    · next he =>
      rw [UInt64.le_iff_toNat_le, he, Atoms.toNat_add_of_fits ha.2.2.2.2.2, ← he]
      omega
    · exact hc p hp
  | _ => exact hc p hp

theorem Sound.serving_post (h : L.Sound) {e : Entry S} (ha : L.Allows e) (c : S.Party)
    (p : PendingSpend S) (id : QueryId) (hp : (L.post e).pending c = some p) (hq : p.query = some id) :
    (L.post e).Serves c id := by
  have kept : ∀ p₀, L.pending c = some p₀ → p₀.query = some id → (L.post e).Serves c id :=
    fun p₀ hp₀ hq₀ => h.serves_post ha (h.serves c p₀ id hp₀ hq₀) (by simp [hp₀])
  rw [pending_post] at hp
  cases e with
  | begun client v query =>
    dsimp only at hp
    split at hp
    · next he =>
      obtain rfl := Option.some.inj hp
      rw [he]
      exact ha.2.2.2 id hq
    · exact kept p hp hq
  | marked client p' =>
    dsimp only at hp
    split at hp
    · next he =>
      subst he
      obtain ⟨p₀, hp₀, rfl⟩ := Option.map_eq_some_iff.1 hp
      exact kept p₀ hp₀ hq
    · exact kept p hp hq
  | completed client p' =>
    dsimp only at hp
    split at hp
    · cases hp
    · exact kept p hp hq
  | _ => exact kept p hp hq

theorem Sound.locked_post (h : L.Sound) {e : Entry S} (ha : L.Allows e) (c : S.Party) :
    ((L.post e).lockedOf c).toNat = ((L.post e).queries.rows.map (Query.heldFor c)).sum := by
  have hc := h.locked c
  -- all but three entries leave both sides alone
  have unchanged : (∀ q, e ≠ .released q) → (∀ x ∈ L.queries.rows, e.keeps x = false → x.heldFor c = 0) →
      (((L.queries.rows.filter fun x => e.keeps x).map fun x => e.onRow x).map (Query.heldFor c)).sum =
        (L.lockedOf c).toNat := by
    intro hrel hkeep
    rw [hc, ← sum_map_filter hkeep, List.map_map]
    refine congrArg List.sum (List.map_congr_left ?_)
    intro x hx
    exact h.heldFor_onRow ha (List.mem_filter.1 hx).1 hrel
  rw [lockedOf_post]
  cases e with
  | reserved q =>
    obtain ⟨-, hst, -, hrel, -, -, -, -, hle⟩ := ha
    have hrows := unchanged (fun _ => by simp) (fun _ _ hk => by simp [Entry.keeps] at hk)
    rw [rows_post, List.map_append, List.sum_append, hrows]
    dsimp only
    split
    · next he =>
      rw [Atoms.toNat_add_of_fits (fits_of_le_raw (he ▸ hle))]
      simp [Entry.fresh, Query.heldFor, Query.holds, hst, hrel, he]
    · next he => simp [Entry.fresh, Query.heldFor, Ne.symm he]
  | released q =>
    -- the one row gives up what the cost is lowered by
    have hsum := sum_map_update h.numbered.nodup ha.1 (fun x => { x with released := true }) (Query.heldFor c)
    have hgone : Query.heldFor c { q with released := true } = 0 := by simp [Query.heldFor, Query.holds]
    have hrows : (L.post (.released q)).queries.rows =
        L.queries.rows.map fun x => if x.id = q.id then { x with released := true } else x := rfl
    rw [hrows]
    dsimp only
    split
    · next he =>
      have hheld : q.heldFor c = q.estimated.toNat := by
        simp [Query.heldFor, Query.holds, ha.2.1, ha.2.2, he]
      rw [he, Atoms.toNat_sub_of_le (h.held_le ha.1 ha.2.1 ha.2.2), ← he]
      omega
    · next he =>
      have hheld : q.heldFor c = 0 := by simp [Query.heldFor, Ne.symm he]
      omega
  | purged asOf retention =>
    -- whatever is stale is finished and holds nothing any more
    have hrows := unchanged (fun _ => by simp) fun x hx hk =>
      h.heldFor_of_stale hx (by simpa [Entry.keeps] using hk)
    rw [rows_post, List.map_append, List.sum_append, hrows]
    rfl
  | _ =>
    have hrows := unchanged (fun _ => by simp) (fun _ _ hk => by simp [Entry.keeps] at hk)
    rw [rows_post, List.map_append, List.sum_append, hrows]
    rfl

theorem Sound.post (h : L.Sound) {e : Entry S} (ha : L.Allows e) : (L.post e).Sound where
  honest := (L.misreported_post e).trans h.honest
  numbered := numbered_post h.numbered ha
  rows := by
    intro q' hq'
    rcases mem_rows_post hq' with ⟨q, hq, -, rfl⟩ | rfl
    · exact h.onRow ha hq
    · obtain ⟨-, hst, hact, hrel, hch, -, hrec, hfin, -⟩ := ha
      constructor <;> simp_all
  nonces := by
    rw [genesis, L.config_post e]
    exact h.nonces_post ha
  parties := by
    rw [L.vendor_post e]
    exact h.parties_post ha
  handed := h.order_post ha
  spent := h.spent_post ha
  covered := h.covered_post ha
  serves := h.serving_post ha
  locked := h.locked_post ha

theorem Sound.trail {allowed : Entry S → Prop} {M : Ledger S} (h : L.Sound) (ht : Trail allowed L M) :
    M.Sound := by
  induction ht with
  | refl => exact h
  | tail _ hstep ih =>
    rcases hstep with ⟨e, -, ha, rfl⟩
    exact ih.post ha

end Ledger
end VoucherGateway
