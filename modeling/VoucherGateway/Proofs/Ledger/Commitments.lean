import VoucherGateway.Proofs.Ledger.Books
import VoucherGateway.Proofs.Ledger.Consumption

/-!
# Commitments in the ledger — what is locked and charged, and what backs it

What a client committed to is the estimates that are locked and all that was ever charged.  It is backed by
the vouchers that were accepted.  An estimate is locked only within the credit, and there the sums that stop at
the largest amount err on the safe side; so nothing but a charge can commit a client to more than the vouchers
and the grace (`Sound.backed_post`).
-/

namespace VoucherGateway

variable {S : Scheme}

/-- The sum that stops at the largest amount is no more than the exact one. -/
theorem Atoms.toNat_total_le (as : List Atoms) : (total as).toNat ≤ (as.map (·.toNat)).sum :=
  toNat_total as ▸ Nat.min_le_left ..

namespace Ledger

variable {L : Ledger S} {e : Entry S} {c : S.Party}

/-- The worth of the vouchers accepted of a client. -/
def accepted (L : Ledger S) (client : S.Party) : Nat := ((L.chain client).vouchers.map (·.atoms.toNat)).sum

/-- The worth of a client's vouchers that are not spent, counting one whose atoms are not taken off yet. -/
def backing (L : Ledger S) (client : S.Party) : Nat :=
  ((L.unreduced client).toList.map (·.atoms.toNat)).sum +
    ((L.chain client).unspent.map (·.atoms.toNat)).sum

/-- What is locked of a client, and all that the client was charged. -/
def committed (L : Ledger S) (client : S.Party) : Nat := (L.lockedOf client).toNat + L.books client

theorem Sound.accepted_eq (h : L.Sound) (c : S.Party) :
    L.accepted c = ((L.handed c).map (·.atoms.toNat)).sum + L.backing c := by
  obtain ⟨-, rest, hrest⟩ := h.spent_vouchers c
  unfold accepted backing
  rw [h.unspent_eq hrest.symm, ← hrest]
  simp only [List.map_append, List.sum_append, Nat.add_assoc]

/-- Vouchers that are handed over count on both sides. -/
theorem Sound.committed_le_iff (h : L.Sound) {extra : Nat} :
    L.committed c ≤ L.accepted c + extra ↔
      (L.lockedOf c).toNat + (L.unmarkedOf c).toNat ≤ L.backing c + extra := by
  rw [h.accepted_eq]
  unfold committed books
  omega

/-! ## An entry -/

theorem Sound.accepted_le_post (h : L.Sound) (ha : L.Allows e) : L.accepted c ≤ (L.post e).accepted c := by
  unfold accepted
  rw [h.chain_post ha]
  cases e with
  | recorded v =>
    dsimp only
    split
    · simp
    · exact Nat.le_refl _
  | marked client p =>
    dsimp only
    split <;> exact Nat.le_refl _
  | _ => exact Nat.le_refl _

/-- An estimate is nothing, or it is within what the vouchers and the grace leave. -/
theorem reserved_within {q : Query S} (ha : L.Allows (.reserved q)) :
    q.estimated.toNat = 0 ∨
      (L.unmarkedOf q.client).toNat + (L.lockedOf q.client).toNat + q.estimated.toNat ≤ Atoms.top.toNat ∧
      (L.unmarkedOf q.client).toNat + (L.lockedOf q.client).toNat + q.estimated.toNat ≤
        L.backing q.client + L.config.credit.grace.toNat := by
  have hraw := UInt64.le_iff_toNat_le.1 ha.2.2.2.2.2.2.2.2
  have htotal := Atoms.toNat_total_le ((L.chain q.client).unspent.map (·.atoms))
  rw [List.map_map] at htotal
  have hunspent : (L.credit q.client).unspent.toNat ≤ L.backing q.client :=
    Nat.le_trans htotal (Nat.le_add_left _ _)
  rw [CreditState.toNat_raw] at hraw
  have hu : (L.credit q.client).unmarked = L.unmarkedOf q.client := rfl
  have hl : (L.credit q.client).locked = L.lockedOf q.client := rfl
  rw [hu, hl] at hraw
  rw [Atoms.toNat_top]
  omega

theorem Sound.lockedOf_le_post (h : L.Sound) (ha : L.Allows e) (hne : ∀ q, e = .reserved q → c ≠ q.client) :
    (L.post e).lockedOf c ≤ L.lockedOf c := by
  rw [lockedOf_post]
  cases e with
  | reserved q =>
    dsimp only
    rw [if_neg (hne q rfl)]
    exact UInt64.le_refl _
  | released q =>
    dsimp only
    split
    · next hc =>
      rw [hc, UInt64.le_iff_toNat_le, Atoms.toNat_sub_of_le (h.held_le ha.1 ha.2.1 ha.2.2)]
      exact Nat.sub_le _ _
    · exact UInt64.le_refl _
  | _ => exact UInt64.le_refl _

theorem Sound.unmarkedOf_le_post (h : L.Sound) (ha : L.Allows e) (hnone : e.charges c = 0) :
    (L.post e).unmarkedOf c ≤ L.unmarkedOf c := by
  have hbooks := h.books_post (c := c) ha
  have hhanded := (h.handed_prefix_post ha c).sublist.map (·.atoms.toNat) |>.sum_le_sum
    fun _ _ => Nat.zero_le _
  unfold books at hbooks
  rw [UInt64.le_iff_toNat_le]
  omega

/-- What locking an estimate adds to what is locked and unmarked. -/
theorem reserved_post {q : Query S} (ha : L.Allows (.reserved q)) :
    ((L.post (.reserved q)).lockedOf q.client).toNat = (L.lockedOf q.client).toNat + q.estimated.toNat := by
  rw [lockedOf_post]
  dsimp only
  rw [if_pos rfl, Atoms.toNat_add_of_fits (fits_of_le_raw ha.2.2.2.2.2.2.2.2)]

/-- What charges nothing commits a client to no more than the vouchers and the grace. -/
theorem Sound.backed_post (h : L.Sound) (ha : L.Allows e) (hnone : e.charges c = 0) {extra : Nat}
    (hle : L.committed c ≤ L.accepted c + (L.config.credit.grace.toNat + extra)) :
    (L.post e).committed c ≤ (L.post e).accepted c + (L.config.credit.grace.toNat + extra) := by
  have hbooks := h.books_post (c := c) ha
  have haccepted := h.accepted_le_post (c := c) ha
  unfold committed at hle ⊢
  by_cases hres : ∃ q, e = .reserved q ∧ c = q.client
  · obtain ⟨q, rfl, rfl⟩ := hres
    have hsplit := h.accepted_eq q.client
    have hwithin := reserved_within ha
    have hlocked := reserved_post ha
    unfold books at hle hbooks ⊢
    omega
  · have hlocked := h.lockedOf_le_post ha fun q he hc => hres ⟨q, he, hc⟩
    rw [UInt64.le_iff_toNat_le] at hlocked
    omega

/-- What charges nothing leaves the sum of what is locked and unmarked in range. -/
theorem Sound.fits_post (h : L.Sound) (ha : L.Allows e) (hnone : e.charges c = 0)
    (hle : (L.unmarkedOf c).toNat + (L.lockedOf c).toNat ≤ Atoms.top.toNat) :
    ((L.post e).unmarkedOf c).toNat + ((L.post e).lockedOf c).toNat ≤ Atoms.top.toNat := by
  have hunmarked := UInt64.le_iff_toNat_le.1 (h.unmarkedOf_le_post ha hnone)
  by_cases hres : ∃ q, e = .reserved q ∧ c = q.client
  · obtain ⟨q, rfl, rfl⟩ := hres
    have hwithin := reserved_within ha
    have hlocked := reserved_post ha
    omega
  · have hlocked := UInt64.le_iff_toNat_le.1 (h.lockedOf_le_post ha fun q he hc => hres ⟨q, he, hc⟩)
    omega

/-! ## Along a trail -/

section Along

variable {allowed : Entry S → Prop} {M : Ledger S}

theorem Trail.accepted_le (ht : Trail allowed L M) (hL : L.Sound) : L.accepted c ≤ M.accepted c := by
  induction ht with
  | refl => exact Nat.le_refl _
  | tail hpath hstep ih =>
    rcases hstep with ⟨e, -, ha, rfl⟩
    exact Nat.le_trans ih ((hL.trail hpath).accepted_le_post ha)

theorem Trail.backed (ht : Trail allowed L M) (hL : L.Sound) (hnone : ∀ e, allowed e → e.charges c = 0)
    {extra : Nat} (hle : L.committed c ≤ L.accepted c + (L.config.credit.grace.toNat + extra)) :
    M.committed c ≤ M.accepted c + (L.config.credit.grace.toNat + extra) := by
  induction ht with
  | refl => exact hle
  | tail hpath hstep ih =>
    rcases hstep with ⟨e, he, ha, rfl⟩
    rw [← Trail.config hpath] at ih ⊢
    exact (hL.trail hpath).backed_post ha (hnone e he) ih

theorem Trail.fits (ht : Trail allowed L M) (hL : L.Sound) (hnone : ∀ e, allowed e → e.charges c = 0)
    (hle : (L.unmarkedOf c).toNat + (L.lockedOf c).toNat ≤ Atoms.top.toNat) :
    (M.unmarkedOf c).toNat + (M.lockedOf c).toNat ≤ Atoms.top.toNat := by
  induction ht with
  | refl => exact hle
  | tail hpath hstep ih =>
    rcases hstep with ⟨e, he, ha, rfl⟩
    exact (hL.trail hpath).fits_post ha (hnone e he) ih

end Along

end Ledger
end VoucherGateway
