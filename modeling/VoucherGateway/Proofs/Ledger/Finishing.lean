import VoucherGateway.Proofs.Ledger.Admission
import VoucherGateway.Proofs.Ledger.Commitments

/-!
# Finished spends — what is left once a spend that broke off is done

Whoever reserves a query has the client's spend that broke off finished first.  There is one way to do so, hence
one ledger at the end of it (`Ledger.finished`).  It holds the same queries, sessions and locked costs.  A voucher
that is marked spent before its atoms are taken off counts against its client, so finishing the spend never
leaves the client less credit (`Sound.raw_le_finished`).
-/

namespace VoucherGateway

variable {S : Scheme}

/-- A voucher that is marked already is not marked again. -/
theorem PendingSpend.marking (p : PendingSpend S) (hm : p.marked = true) : { p with marked := true } = p := by
  rw [← hm]

namespace Ledger

variable {L M N : Ledger S} {client c : S.Party} {p : PendingSpend S}

/-- A client's credit at a reading of the chain. -/
def snapshot (L : Ledger S) (client : S.Party) (chain : ChainSnapshot) : CreditSnapshot :=
  ⟨L.credit client, chain.riskAdjustedCap L.config.credit.expandRiskFactor, L.config.credit.grace⟩

/-- The ledger once a client's spend that broke off is finished. -/
def finished (L : Ledger S) (client : S.Party) : Ledger S :=
  match L.pending client with
  | none => L
  | some p =>
    (if p.marked then L else L.post (.marked client p)).post (.completed client { p with marked := true })

theorem finished_of_idle (hp : L.pending client = none) : L.finished client = L := by
  unfold finished
  rw [hp]

/-- There is one way to finish a spend. -/
theorem finished_of_trail (ht : Trail (Entry.Finishes client) L M) (hp : M.pending client = none) :
    M = L.finished client := by
  induction ht using Relation.ReflTransGen.head_induction_on with
  | refl => exact (finished_of_idle hp).symm
  | @head L K hstep hpath ih =>
    obtain ⟨e, he, ha, rfl⟩ := hstep
    rw [ih]
    cases e with
    | marked c p =>
      obtain rfl : c = client := he
      have hpending : (L.post (.marked c p)).pending c = some { p with marked := true } := by
        simp [pending_post, ha.1]
      simp only [finished, hpending, ha.1, ha.2]
      rfl
    | completed c p =>
      obtain rfl : c = client := he
      have hpending : (L.post (.completed c p)).pending c = none := by
        rw [pending_post]
        exact if_pos rfl
      rw [finished_of_idle hpending]
      simp only [finished, ha.1, p.marking ha.2, ha.2, if_true]
    | _ => cases he

/-- And it can be gone from every sound ledger. -/
theorem finishing (L : Ledger S) (client : S.Party) : Trail (Entry.Finishes client) L (L.finished client) := by
  unfold finished
  cases hp : L.pending client with
  | none => exact .refl
  | some p =>
    dsimp only
    cases hm : p.marked with
    | true =>
      rw [p.marking hm]
      have ha : L.Allows (.completed client p) := ⟨hp, hm⟩
      exact .post (show Entry.Finishes client (.completed client p) from rfl) ha
    | false =>
      have ha : L.Allows (.marked client p) := ⟨hp, hm⟩
      have hpending : (L.post (.marked client p)).pending client = some { p with marked := true } := by
        simp [pending_post, hp]
      have ha' : (L.post (.marked client p)).Allows (.completed client { p with marked := true }) :=
        ⟨hpending, rfl⟩
      exact (Trail.post (show Entry.Finishes client (.marked client p) from rfl) ha).trans
        (Trail.post (show Entry.Finishes client (.completed client _) from rfl) ha')

theorem Sound.finish (h : L.Sound) (client : S.Party) : (L.finished client).Sound :=
  h.trail (finishing L client)

/-! ## What finishing a spend leaves alone -/

/-- Nothing is reserved from one ledger to the other: the queries of the same numbers are on record, and the same
costs are locked. -/
structure Unreserved (L M : Ledger S) : Prop where
  locked : M.locked = L.locked
  ids : M.queries.rows.map (·.id) = L.queries.rows.map (·.id)

theorem Unreserved.refl (L : Ledger S) : L.Unreserved L := ⟨rfl, rfl⟩

theorem Unreserved.trans (h : L.Unreserved M) (h' : M.Unreserved N) : L.Unreserved N :=
  ⟨h'.locked.trans h.locked, h'.ids.trans h.ids⟩

theorem Unreserved.lockedOf (h : L.Unreserved M) (c : S.Party) : M.lockedOf c = L.lockedOf c := by
  unfold Ledger.lockedOf
  rw [h.locked]

/-- Changing a query on record reserves nothing. -/
theorem ids_update (t : QueryTable S) (id : QueryId) {f : Query S → Query S} (hf : ∀ q, (f q).id = q.id) :
    (t.update id f).rows.map (·.id) = t.rows.map (·.id) := by
  simp only [QueryTable.update, List.map_map]
  refine List.map_congr_left fun q _ => ?_
  simp only [Function.comp_apply]
  split
  · exact hf q
  · rfl

theorem unreserved_of_finishes {e : Entry S} (he : e.Finishes client) : L.Unreserved (L.post e) := by
  cases e with
  | marked _ p => exact ⟨rfl, rfl⟩
  | completed _ p =>
    refine ⟨rfl, ?_⟩
    simp only [post]
    cases p.query with
    | none => rfl
    | some id => exact ids_update L.queries id fun _ => rfl
  | _ => cases he

theorem Trail.unreserved {allowed : Entry S → Prop} (ht : Trail allowed L M)
    (hnone : ∀ N e, allowed e → Ledger.Unreserved N (N.post e)) : L.Unreserved M := by
  induction ht with
  | refl => exact .refl L
  | tail _ hstep ih =>
    obtain ⟨e, he, -, rfl⟩ := hstep
    exact ih.trans (hnone _ e he)

theorem unreserved_finished (L : Ledger S) (client : S.Party) : L.Unreserved (L.finished client) :=
  (finishing L client).unreserved fun _ _ => unreserved_of_finishes

theorem next_finished (L : Ledger S) (client : S.Party) : (L.finished client).queries.next = L.queries.next := by
  have hstep : ∀ (N : Ledger S) (p : PendingSpend S), (N.post (.completed client p)).queries.next = N.queries.next :=
    fun N p => by cases hq : p.query <;> simp [post, hq, QueryTable.update]
  unfold finished
  split
  · rfl
  · rw [hstep]
    split <;> rfl

theorem sessions_finished (L : Ledger S) (client : S.Party) : (L.finished client).sessions = L.sessions := by
  unfold finished
  split
  · rfl
  · split <;> rfl

theorem halted_finished (L : Ledger S) (client : S.Party) : (L.finished client).halted = L.halted := by
  unfold finished
  split
  · rfl
  · split <;> rfl

theorem pending_finished (L : Ledger S) (client : S.Party) : (L.finished client).pending client = none := by
  unfold finished
  split
  · next hp => exact hp
  · rw [pending_post]
    exact if_pos rfl

/-! ## The credit once a spend is finished -/

/-- The voucher of the spend is handed over, and its atoms are taken off. -/
theorem Sound.handed_finished (h : L.Sound) (hp : L.pending client = some p) :
    ((L.finished client).chain client).vouchers = (L.chain client).vouchers ∧
      (L.finished client).handed client = L.handed client ++ [p.voucher] ∧
      (L.finished client).unmarkedOf client = L.unmarkedOf client - p.voucher.atoms := by
  have completed : ∀ {N : Ledger S}, N.Sound → N.pending client = some { p with marked := true } →
      ((N.post (.completed client { p with marked := true })).chain client).vouchers =
          (N.chain client).vouchers ∧
        (N.post (.completed client { p with marked := true })).handed client =
          N.handed client ++ [p.voucher] ∧
        (N.post (.completed client { p with marked := true })).unmarkedOf client =
          N.unmarkedOf client - p.voucher.atoms := by
    intro N hN hpN
    have ha : N.Allows (.completed client { p with marked := true }) := ⟨hpN, rfl⟩
    rw [hN.chain_post ha, hN.handed_post ha, unmarkedOf_post]
    exact ⟨rfl, if_pos rfl, if_pos rfl⟩
  unfold finished
  rw [hp]
  dsimp only
  cases hm : p.marked with
  | true =>
    rw [if_pos rfl]
    exact completed h (hp.trans (congrArg some (p.marking hm).symm))
  | false =>
    have ha : L.Allows (.marked client p) := ⟨hp, hm⟩
    have hpending : (L.post (.marked client p)).pending client = some { p with marked := true } := by
      simp [pending_post, hp]
    obtain ⟨hvouchers, hhanded, hunmarked⟩ := completed (h.post ha) hpending
    refine ⟨hvouchers.trans ?_, hhanded.trans ?_, hunmarked⟩
    · rw [h.chain_post ha]
      simp
    · rw [h.handed_post ha]

/-- The voucher of the spend is the oldest one that was not spent, unless it was marked already. -/
theorem Sound.unspent_finished (h : L.Sound) (hp : L.pending client = some p) :
    (L.chain client).unspent =
      (if p.marked then [] else [p.voucher]) ++ ((L.finished client).chain client).unspent := by
  obtain ⟨hvouchers, hhanded, -⟩ := h.handed_finished hp
  obtain ⟨rest, hrest⟩ := h.handed client
  rw [hp] at hrest
  have hsplit : (L.chain client).vouchers = L.handed client ++ [p.voucher] ++ rest := hrest.symm
  have hafter : ((L.finished client).chain client).unspent = rest := by
    refine (h.finish client).unspent_eq ?_
    rw [unreduced_eq_none (pending_finished L client), hvouchers, hhanded]
    simpa using hsplit
  rw [hafter]
  refine h.unspent_eq ?_
  cases hm : p.marked <;> simp [unreduced, hp, hm, hsplit, Option.filter_some]

/-- While a spend is under way its voucher may count as spent although its atoms are not taken off, so less is left
uncommitted than once it is finished. -/
theorem Sound.raw_le_finished (h : L.Sound) (client : S.Party) (grace : Atoms) :
    (L.credit client).raw grace ≤ ((L.finished client).credit client).raw grace := by
  cases hp : L.pending client with
  | none => exact (finished_of_idle hp).symm ▸ UInt64.le_refl _
  | some p =>
    obtain ⟨-, -, hunmarked⟩ := h.handed_finished hp
    have hcovered := h.covered client p hp
    have hunspent := congrArg (fun vs => (vs.map (·.atoms.toNat)).sum) (h.unspent_finished hp)
    have hlocked := (unreserved_finished L client).lockedOf client
    have hleft := Atoms.toNat_sub_of_le hcovered
    rw [UInt64.le_iff_toNat_le] at hcovered ⊢
    simp only [CreditState.toNat_raw, credit, Atoms.toNat_total, List.map_map, Function.comp_def, hlocked,
      hunmarked, hleft]
    simp only [List.map_append, List.sum_append] at hunspent
    -- taking the atoms off both sides widens the gap only where one of the sums stops
    split at hunspent <;> simp at hunspent <;> omega

/-- So what is available is no less either. -/
theorem Sound.available_le_finished (h : L.Sound) (client : S.Party) (chain : ChainSnapshot) :
    (L.snapshot client chain).available ≤ ((L.finished client).snapshot client chain).available := by
  have hconfig : (L.finished client).config = L.config := (finishing L client).config
  obtain ⟨hraw, hcap⟩ := Std.le_min_iff.1 (UInt64.le_refl (L.snapshot client chain).available)
  refine Std.le_min_iff.2 ⟨UInt64.le_trans hraw ?_, ?_⟩
  · have hle := h.raw_le_finished client L.config.credit.grace
    simp only [CreditSnapshot.raw, snapshot, hconfig]
    exact hle
  · simp only [snapshot, hconfig]
    exact hcap

end Ledger
end VoucherGateway
