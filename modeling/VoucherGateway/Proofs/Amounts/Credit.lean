import VoucherGateway.Gateway.Inquiry
import VoucherGateway.Proofs.Ledger.Sound
import VoucherGateway.Proofs.Ledger.Calls

/-!
# Credit — sums that stop err on the safe side

The sums behind a client's credit stop at the largest amount.  Where they stop, the client gets less credit than
the exact figures allow, never more.  The cap is one vendor's share of the client's collateral: as many vendors as
the client is subscribed to do not exceed the collateral together.

Main statement: `credit_conservative`.
-/

namespace VoucherGateway

variable {S : Scheme}

/-! ## The cap -/

namespace ChainSnapshot

variable (c : ChainSnapshot) (riskFactor : UInt64)

/-- However many vendors are reckoned with, all that are subscribed to are among them. -/
theorem count_le_exposure : c.subscribedVendorCount.toNat ≤ (c.exposure riskFactor).toNat := by
  -- a count is at most the largest word, at which the exposure stops
  have hfits := Atoms.toNat_le_top c.subscribedVendorCount
  rw [exposure, Atoms.toNat_plus]
  omega

/-- A share is no more than an equal one among the vendors that are subscribed to. -/
theorem riskAdjustedCap_le (hcount : 0 < c.subscribedVendorCount.toNat) :
    (c.riskAdjustedCap riskFactor).toNat ≤ c.effectiveCollateral.toNat / c.subscribedVendorCount.toNat := by
  rw [toNat_riskAdjustedCap]
  exact Nat.div_le_div_left (c.count_le_exposure riskFactor) hcount

end ChainSnapshot

/-! ## The credit -/

theorem CreditState.raw_eq_zero_or (s : CreditState) (grace : Atoms) :
    s.raw grace = 0 ∨ s.overdraft grace = 0 := by
  rw [← UInt64.toNat_inj, ← UInt64.toNat_inj, toNat_raw, toNat_overdraft]
  change _ = 0 ∨ _ = 0
  omega

theorem CreditSnapshot.toNat_available (s : CreditSnapshot) :
    s.available.toNat = min s.raw.toNat s.cap.toNat := by
  rw [available, Std.min_eq_if]
  split <;> rename_i h <;> rw [UInt64.le_iff_toNat_le] at h <;> omega

theorem CreditSnapshot.available_le_cap (s : CreditSnapshot) : s.available ≤ s.cap := by
  rw [UInt64.le_iff_toNat_le, toNat_available]
  exact Nat.min_le_right _ _

/-- What a vendor knows of a client: what each voucher that is not spent is worth, the two running costs, and what
the vendor's settings grant and reckon with. -/
structure Position where
  vouchers : List Atoms := []
  unmarked : Atoms := 0
  locked : Atoms := 0
  grace : Atoms := 0
  riskFactor : UInt64 := 0

namespace Position

/-- The credit of a position at a reading of the chain. -/
def snapshot (p : Position) (c : ChainSnapshot) : CreditSnapshot :=
  ⟨⟨Atoms.total p.vouchers, p.unmarked, p.locked⟩, c.riskAdjustedCap p.riskFactor, p.grace⟩

/-- What all the vouchers are worth. -/
def worth (p : Position) : Nat := (p.vouchers.map (·.toNat)).sum

/-- What vouchers and grace leave when both costs are taken off; below zero if they do not cover them. -/
def balance (p : Position) : Int := p.worth + p.grace.toNat - p.unmarked.toNat - p.locked.toNat

/-- Vouchers and grace, and the two costs, are amounts together. -/
structure Fits (p : Position) : Prop where
  backing : p.worth + p.grace.toNat ≤ 0xFFFFFFFFFFFFFFFF
  costs : p.unmarked.toNat + p.locked.toNat ≤ 0xFFFFFFFFFFFFFFFF

variable (p : Position) (c : ChainSnapshot)

theorem toNat_raw : (p.snapshot c).raw.toNat =
    min (min p.worth 0xFFFFFFFFFFFFFFFF + p.grace.toNat) 0xFFFFFFFFFFFFFFFF -
      min (p.unmarked.toNat + p.locked.toNat) 0xFFFFFFFFFFFFFFFF := by
  have htotal : (Atoms.total p.vouchers).toNat = min p.worth 0xFFFFFFFFFFFFFFFF := Atoms.toNat_total p.vouchers
  rw [← htotal]
  exact CreditState.toNat_raw _ _

theorem toNat_overdraft : (p.snapshot c).overdraft.toNat =
    min (p.unmarked.toNat + p.locked.toNat) 0xFFFFFFFFFFFFFFFF -
      min (min p.worth 0xFFFFFFFFFFFFFFFF + p.grace.toNat) 0xFFFFFFFFFFFFFFFF := by
  have htotal : (Atoms.total p.vouchers).toNat = min p.worth 0xFFFFFFFFFFFFFFFF := Atoms.toNat_total p.vouchers
  rw [← htotal]
  exact CreditState.toNat_overdraft _ _

/-- Where a sum stops, credit is lost and none is gained. -/
theorem raw_le_balance : (p.snapshot c).raw.toNat ≤ p.balance.toNat := by
  rw [toNat_raw]
  unfold balance
  omega

variable {p}

theorem Fits.raw_eq (h : p.Fits) : (p.snapshot c).raw.toNat = p.balance.toNat := by
  obtain ⟨hbacking, hcosts⟩ := h
  rw [toNat_raw]
  unfold balance
  omega

theorem Fits.raw_sub_overdraft (h : p.Fits) :
    ((p.snapshot c).raw.toNat : Int) - (p.snapshot c).overdraft.toNat = p.balance := by
  obtain ⟨hbacking, hcosts⟩ := h
  rw [toNat_raw, toNat_overdraft]
  unfold balance
  omega

/-- As many vendors as are subscribed to do not hand out more than the collateral. -/
theorem sum_available_le {ps : List Position} (hlength : ps.length ≤ c.subscribedVendorCount.toNat) :
    (ps.map fun p => (p.snapshot c).available.toNat).sum ≤ c.effectiveCollateral.toNat := by
  rcases Nat.eq_zero_or_pos c.subscribedVendorCount.toNat with hzero | hpos
  · -- nobody is subscribed to, so nobody asks
    have hnil : ps = [] := List.length_eq_zero_iff.mp (by omega)
    rw [hnil]
    exact Nat.zero_le _
  · have hshare : ∀ n ∈ ps.map fun p => (p.snapshot c).available.toNat,
        n ≤ c.effectiveCollateral.toNat / c.subscribedVendorCount.toNat := by
      intro n hn
      obtain ⟨p, -, rfl⟩ := List.mem_map.mp hn
      rw [CreditSnapshot.toNat_available]
      exact (Nat.min_le_right _ _).trans (c.riskAdjustedCap_le p.riskFactor hpos)
    calc
      (ps.map fun p => (p.snapshot c).available.toNat).sum
          ≤ ps.length * (c.effectiveCollateral.toNat / c.subscribedVendorCount.toNat) := by
        simpa using List.sum_le_card_nsmul _ _ hshare
      _ ≤ c.subscribedVendorCount.toNat * (c.effectiveCollateral.toNat / c.subscribedVendorCount.toNat) :=
        Nat.mul_le_mul_right _ hlength
      _ ≤ c.effectiveCollateral.toNat := Nat.mul_div_le _ _

end Position

/-! ## What a vendor is told -/

namespace Gateway

/-- What a vendor knows of a client. -/
def position (g : Gateway S) (vendor client : S.Party) : Position where
  vouchers := (g.vouchers.chain client vendor).unspent.map (·.atoms)
  unmarked := g.unmarked.cost client
  locked := g.balances.cost client
  grace := g.config.credit.grace
  riskFactor := g.config.credit.expandRiskFactor

/-- The credit that is read is that of the position. -/
theorem reads_position (g : Gateway S) (vendor client : S.Party) (chain : ChainSnapshot) :
    Ends (fun s g' => s = (g.position vendor client).snapshot chain ∧ g'.ledger = g.ledger)
      (fun e g' => g'.ledger = g.ledger ∧ e.IsOutage) ((creditAt vendor client chain).run g) := by
  have hunspent : Ends
      (fun vs g' => g'.ledger = g.ledger ∧ vs = (g.vouchers.chain client vendor).unspent)
      (fun e g' => g'.ledger = g.ledger ∧ e.IsOutage)
      ((onVouchers (VoucherStore.unspent client vendor)).run g) := by
    refine ends_vouchers rfl fun g' hg' => ?_
    have hchains : g'.vouchers.chains = g.vouchers.chains := congrArg Ledger.chains hg'
    exact ⟨hg', by unfold VoucherStore.chain; rw [hchains]⟩
  unfold creditAt creditState
  -- none of the three reads changes what lasts, so each finds what the first found
  rw [bind_assoc]
  refine Action.ends_bind hunspent ?_
  rintro vs g₁ ⟨h₁, rfl⟩
  rw [bind_assoc]
  refine Action.ends_bind (ends_readUnmarked client h₁) ?_
  rintro unmarked g₂ ⟨h₂, rfl⟩
  rw [bind_assoc]
  refine Action.ends_bind (ends_readLocked client h₂) ?_
  rintro locked g₃ ⟨h₃, rfl⟩
  have hconfig : g₃.config = g.config := congrArg Ledger.config h₃
  refine ⟨?_, h₃⟩
  change CreditSnapshot.mk _ (chain.riskAdjustedCap g₃.config.credit.expandRiskFactor) g₃.config.credit.grace = _
  rw [hconfig]
  rfl

end Gateway

/-- Whatever a vendor knows of a client and reads on the chain, the credit that it is told is at most the exact
balance and at most its share of the collateral, and it is the lesser of the two where the sums are amounts.  There
is never a credit and an overdraft at once; as many vendors as the client is subscribed to are told no more than
the collateral together. -/
theorem credit_conservative (chain : ChainSnapshot) :
    (∀ (g : Gateway S) (vendor client : S.Party),
      Ends (fun s g' => s = (g.position vendor client).snapshot chain ∧ g'.ledger = g.ledger)
        (fun e g' => g'.ledger = g.ledger ∧ e.IsOutage) ((Gateway.creditAt vendor client chain).run g)) ∧
    (∀ p : Position,
      ((p.snapshot chain).available.toNat ≤ p.balance.toNat ∧
        (p.snapshot chain).available ≤ chain.riskAdjustedCap p.riskFactor) ∧
      ((p.snapshot chain).raw = 0 ∨ (p.snapshot chain).overdraft = 0) ∧
      (p.Fits →
        (p.snapshot chain).available.toNat = min p.balance.toNat (chain.riskAdjustedCap p.riskFactor).toNat ∧
        ((p.snapshot chain).raw.toNat : Int) - (p.snapshot chain).overdraft.toNat = p.balance)) ∧
    ∀ ps : List Position, ps.length ≤ chain.subscribedVendorCount.toNat →
      (ps.map fun p => (p.snapshot chain).available.toNat).sum ≤ chain.effectiveCollateral.toNat := by
  refine ⟨fun g vendor client => g.reads_position vendor client chain,
    fun p => ⟨⟨?_, ?_⟩, ?_, fun hfits => ⟨?_, ?_⟩⟩,
    fun ps hlength => Position.sum_available_le chain hlength⟩
  · calc
      (p.snapshot chain).available.toNat = min (p.snapshot chain).raw.toNat (p.snapshot chain).cap.toNat :=
        CreditSnapshot.toNat_available _
      _ ≤ (p.snapshot chain).raw.toNat := Nat.min_le_left ..
      _ ≤ p.balance.toNat := p.raw_le_balance chain
  · exact (p.snapshot chain).available_le_cap
  · exact CreditState.raw_eq_zero_or _ _
  · rw [CreditSnapshot.toNat_available, hfits.raw_eq]
    rfl
  · exact hfits.raw_sub_overdraft chain

end VoucherGateway
