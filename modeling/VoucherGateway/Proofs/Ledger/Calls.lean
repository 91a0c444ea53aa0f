import VoucherGateway.Proofs.Ledger.Sound

/-!
# Store calls — what one call to a store reads or changes

Every call may find its store out of service, and then changes nothing that lasts.  For a call that is
answered, the lemmas of this module say what the answer is and which part of the ledger has changed.
-/

namespace VoucherGateway

variable {S : Scheme}

/-- A store did not answer. -/
def Error.IsOutage (e : Error) : Prop := ∃ detail, e = .storeUnavailable detail

theorem Error.IsOutage.not_fatal {e : Error} (h : e.IsOutage) : e.isFatal = false := by
  obtain ⟨detail, rfl⟩ := h
  rfl

theorem Outage.ends_check {κ : Type} [DecidableEq κ] (store : String) (name : κ → String) (kind : κ)
    (o : Outage κ) :
    Ends (fun _ _ => True) (fun e _ => e.IsOutage) ((check store name kind).run o) := by
  rcases h : (check store name kind).run o with ⟨e | a, o'⟩
  · exact check_error (congrArg Prod.fst h)
  · trivial

/-! ## Cost stores -/

namespace CostStore

variable (book : CostBook) (client : S.Party) (atoms : Atoms) (s : CostStore S)

theorem ends_check (kind : CostCall) :
    Ends (fun _ s' => s'.costs = s.costs) (fun e s' => s'.costs = s.costs ∧ e.IsOutage)
      ((check book kind).run s) :=
  Action.ends_within.2 ((Outage.ends_check _ _ kind s.outage).mono (fun _ _ _ => rfl) fun _ _ h => ⟨rfl, h⟩)

theorem cost_congr {s s' : CostStore S} (h : s'.costs = s.costs) : s'.cost client = s.cost client := by
  simp [cost, h]

theorem ends_read :
    Ends (fun a s' => s'.costs = s.costs ∧ a = s.cost client) (fun e s' => s'.costs = s.costs ∧ e.IsOutage)
      ((read book client).run s) := by
  refine Action.ends_bind (ends_check book s .read) ?_
  intro _ s' hs
  exact ⟨hs, cost_congr client hs⟩

theorem ends_add :
    Ends
      (fun a s' => s'.costs = s.costs.put client a ∧ a = s.cost client + atoms ∧
        (s.cost client).toNat + atoms.toNat ≤ Atoms.top.toNat)
      (fun e s' => s'.costs = s.costs ∧ (e.IsOutage ∨ Atoms.top.toNat < (s.cost client).toNat + atoms.toNat ∧
        e = .violation (.overflow book.cost (S.partyText client) (s.cost client) atoms)))
      ((add book client atoms).run s) := by
  refine Action.ends_bind ((ends_check book s .add).mono_error fun _ _ h => ⟨h.1, .inl h.2⟩) ?_
  intro _ s' hs
  rw [Action.run_get_bind, cost_congr client hs]
  cases hadd : Atoms.add? (s.cost client) atoms with
  | none =>
    exact ⟨hs, .inr ⟨Atoms.add?_eq_none_iff.1 hadd, rfl⟩⟩
  | some sum =>
    have hfits : (s.cost client).toNat + atoms.toNat ≤ Atoms.top.toNat :=
      Atoms.add?_eq_some_iff.1 hadd ▸ Atoms.toNat_le_top sum
    have hsum : sum = s.cost client + atoms :=
      UInt64.toNat_inj.1 ((Atoms.add?_eq_some_iff.1 hadd).symm.trans (Atoms.toNat_add_of_fits hfits).symm)
    exact ⟨congrArg (Table.put · client sum) hs, hsum, hfits⟩

/-- A cost that covers what is taken from it is reduced by that much. -/
theorem ends_subtract (hle : atoms ≤ s.cost client) :
    Ends (fun a s' => s'.costs = s.costs.put client a ∧ a = s.cost client - atoms)
      (fun e s' => s'.costs = s.costs ∧ e.IsOutage) ((subtract book client atoms).run s) := by
  refine Action.ends_bind (ends_check book s .subtract) ?_
  intro _ s' hs
  have hsub : Atoms.sub? (s.cost client) atoms = some (s.cost client - atoms) := if_pos hle
  rw [Action.run_get_bind, cost_congr client hs, hsub]
  exact ⟨congrArg (Table.put · client _) hs, rfl⟩

end CostStore

namespace Gateway

section Costs

variable {g : Gateway S} {α : Type} {act : CostBook → CostStore.Act S α} {costs : α → Table S.Party Atoms}
  {ok : α → Prop} {bad : Error → Prop}

/-- What a step does to the costs of the unmarked store, it does to the ledger. -/
theorem ends_onUnmarked
    (h : Ends (fun a s => s.costs = costs a ∧ ok a) (fun e s => s.costs = g.unmarked.costs ∧ bad e)
      ((act .unmarked).run g.unmarked)) :
    Ends (fun a g' => g'.ledger = { g.ledger with unmarked := costs a } ∧ ok a)
      (fun e g' => g'.ledger = g.ledger ∧ bad e) ((onUnmarked act).run g) := by
  refine Action.ends_within.2 (h.mono ?_ ?_)
  · intro a s hs
    exact ⟨by simp only [ledger, hs.1], hs.2⟩
  · intro e s hs
    exact ⟨by simp only [ledger, hs.1], hs.2⟩

/-- The same for the store of locked cost. -/
theorem ends_onBalances
    (h : Ends (fun a s => s.costs = costs a ∧ ok a) (fun e s => s.costs = g.balances.costs ∧ bad e)
      ((act .balances).run g.balances)) :
    Ends (fun a g' => g'.ledger = { g.ledger with locked := costs a } ∧ ok a)
      (fun e g' => g'.ledger = g.ledger ∧ bad e) ((onBalances act).run g) := by
  refine Action.ends_within.2 (h.mono ?_ ?_)
  · intro a s hs
    exact ⟨by simp only [ledger, hs.1], hs.2⟩
  · intro e s hs
    exact ⟨by simp only [ledger, hs.1], hs.2⟩

end Costs

variable {g : Gateway S} {L : Ledger S} (client : S.Party) (atoms : Atoms)

theorem ends_readUnmarked (hg : g.ledger = L) :
    Ends (fun a g' => g'.ledger = L ∧ a = L.unmarkedOf client) (fun e g' => g'.ledger = L ∧ e.IsOutage)
      ((onUnmarked fun book => CostStore.read book client).run g) := by
  subst hg
  exact ends_onUnmarked (CostStore.ends_read _ client g.unmarked)

theorem ends_readLocked (hg : g.ledger = L) :
    Ends (fun a g' => g'.ledger = L ∧ a = L.lockedOf client) (fun e g' => g'.ledger = L ∧ e.IsOutage)
      ((onBalances fun book => CostStore.read book client).run g) := by
  subst hg
  exact ends_onBalances (CostStore.ends_read _ client g.balances)

theorem ends_addUnmarked (hg : g.ledger = L) :
    Ends
      (fun a g' => g'.ledger = { L with unmarked := L.unmarked.put client a } ∧
        a = L.unmarkedOf client + atoms ∧ (L.unmarkedOf client).toNat + atoms.toNat ≤ Atoms.top.toNat)
      (fun e g' => g'.ledger = L ∧ (e.IsOutage ∨ Atoms.top.toNat < (L.unmarkedOf client).toNat + atoms.toNat ∧
        e = .violation (.overflow .unmarked (S.partyText client) (L.unmarkedOf client) atoms)))
      ((onUnmarked fun book => CostStore.add book client atoms).run g) := by
  subst hg
  exact ends_onUnmarked (CostStore.ends_add _ client atoms g.unmarked)

theorem ends_subtractUnmarked (hg : g.ledger = L) (hle : atoms ≤ L.unmarkedOf client) :
    Ends
      (fun a g' => g'.ledger = { L with unmarked := L.unmarked.put client a } ∧
        a = L.unmarkedOf client - atoms)
      (fun e g' => g'.ledger = L ∧ e.IsOutage)
      ((onUnmarked fun book => CostStore.subtract book client atoms).run g) := by
  subst hg
  exact ends_onUnmarked (CostStore.ends_subtract _ client atoms g.unmarked hle)

/-- Locking a cost that still fits. -/
theorem ends_addLocked (hg : g.ledger = L)
    (hfits : (L.lockedOf client).toNat + atoms.toNat ≤ Atoms.top.toNat) :
    Ends
      (fun a g' => g'.ledger = { L with locked := L.locked.put client a } ∧ a = L.lockedOf client + atoms)
      (fun e g' => g'.ledger = L ∧ e.IsOutage)
      ((onBalances fun book => CostStore.add book client atoms).run g) := by
  subst hg
  refine (ends_onBalances (CostStore.ends_add _ client atoms g.balances)).mono (fun _ _ h => ⟨h.1, h.2.1⟩) ?_
  rintro e g' ⟨hg', hout | ⟨hover, -⟩⟩
  · exact ⟨hg', hout⟩
  · exact absurd hfits (Nat.not_le.2 hover)

theorem ends_subtractLocked (hg : g.ledger = L) (hle : atoms ≤ L.lockedOf client) :
    Ends
      (fun a g' => g'.ledger = { L with locked := L.locked.put client a } ∧ a = L.lockedOf client - atoms)
      (fun e g' => g'.ledger = L ∧ e.IsOutage)
      ((onBalances fun book => CostStore.subtract book client atoms).run g) := by
  subst hg
  exact ends_onBalances (CostStore.ends_subtract _ client atoms g.balances hle)

end Gateway

/-! ## The voucher store -/

namespace VoucherStore

theorem ends_check (kind : VoucherCall) (s : VoucherStore S) :
    Ends (fun _ s' => s'.chains = s.chains ∧ s'.misreported = s.misreported)
      (fun e s' => (s'.chains = s.chains ∧ s'.misreported = s.misreported) ∧ e.IsOutage)
      ((check kind).run s) :=
  Action.ends_within.2 ((Outage.ends_check _ _ kind s.outage).mono (fun _ _ _ => ⟨rfl, rfl⟩)
    fun _ _ h => ⟨⟨rfl, rfl⟩, h⟩)

end VoucherStore

namespace Gateway

variable {g : Gateway S} {L : Ledger S} {α : Type}

/-- A call to the voucher store goes on as if the store had answered, unless it is out of service. -/
theorem ends_vouchers {kind : VoucherCall} {rest : VoucherStore.Act S α} {ok : α → Gateway S → Prop}
    (hg : g.ledger = L)
    (hrest : ∀ g', g'.ledger = L →
      Ends ok (fun e g' => g'.ledger = L ∧ e.IsOutage) ((onVouchers rest).run g')) :
    Ends ok (fun e g' => g'.ledger = L ∧ e.IsOutage)
      ((onVouchers (do VoucherStore.check kind; rest)).run g) := by
  subst hg
  -- asking whether the store answers changes its plan of outages, which is no part of the ledger
  have same : ∀ s : VoucherStore S,
      s.chains = g.vouchers.chains ∧ s.misreported = g.vouchers.misreported →
      Gateway.ledger { g with vouchers := s } = g.ledger := by
    intro s h
    simp only [ledger, h]
  refine Action.ends_within.2 (Action.ends_bind ((VoucherStore.ends_check kind g.vouchers).mono_error
    fun e s h => ⟨same s h.1, h.2⟩) ?_)
  intro _ s h
  exact Action.ends_within.1 (hrest { g with vouchers := s } (same s h))

variable (client : S.Party) {vendor : S.Party}

theorem ends_latestNonce (hg : g.ledger = L) (hv : vendor = L.vendor) (hh : L.misreported = none) :
    Ends (fun a g' => g'.ledger = L ∧ a = (L.chain client).latest?) (fun e g' => g'.ledger = L ∧ e.IsOutage)
      ((onVouchers (VoucherStore.latestNonce client vendor)).run g) := by
  refine ends_vouchers hg ?_
  rintro g' rfl
  subst hv
  have hh : g'.vouchers.misreported = none := hh
  exact ⟨rfl, by rw [hh]; rfl⟩

theorem ends_unspent (hg : g.ledger = L) (hv : vendor = L.vendor) :
    Ends (fun a g' => g'.ledger = L ∧ a = (L.chain client).unspent) (fun e g' => g'.ledger = L ∧ e.IsOutage)
      ((onVouchers (VoucherStore.unspent client vendor)).run g) := by
  refine ends_vouchers hg ?_
  rintro g' rfl
  subst hv
  exact ⟨rfl, rfl⟩

theorem ends_isSpent (v : Voucher S) (hg : g.ledger = L) (hv : v.vendor = L.vendor) :
    Ends (fun a g' => g'.ledger = L ∧ a = (L.chain v.client).spent.contains v.nonce)
      (fun e g' => g'.ledger = L ∧ e.IsOutage) ((onVouchers (VoucherStore.isSpent v.id)).run g) := by
  refine ends_vouchers hg ?_
  rintro g' rfl
  rw [Ledger.chain, ← hv]
  exact ⟨rfl, rfl⟩

/-- Marking a voucher that can be marked. -/
theorem ends_markSpent {v : Voucher S} {c : VoucherChain S} (hg : g.ledger = L) (hv : v.vendor = L.vendor)
    (hc : (L.chain v.client).markSpent v.id = .ok c) :
    Ends (fun _ g' => g'.ledger = { L with chains := L.chains.put (v.client, v.vendor) c })
      (fun e g' => g'.ledger = L ∧ e.IsOutage) ((onVouchers (VoucherStore.markSpent v.id)).run g) := by
  refine ends_vouchers hg ?_
  rintro g' rfl
  rw [Ledger.chain, ← hv] at hc
  have hc : (g'.vouchers.chain v.id.client v.id.vendor).markSpent v.id = .ok c := hc
  refine Action.ends_within.2 ?_
  rw [Action.run_get_bind, hc]
  rfl

/-- Recording a voucher that follows the newest one. -/
theorem ends_insert {v : Voucher S} {c : VoucherChain S} (hg : g.ledger = L) (hv : v.vendor = L.vendor)
    (hc : (L.chain v.client).insert v = .ok (true, c)) :
    Ends (fun a g' => g'.ledger = { L with chains := L.chains.put (v.client, v.vendor) c } ∧ a = true)
      (fun e g' => g'.ledger = L ∧ e.IsOutage) ((onVouchers (VoucherStore.insert v)).run g) := by
  refine ends_vouchers hg ?_
  rintro g' rfl
  rw [Ledger.chain, ← hv] at hc
  have hc : (g'.vouchers.chain v.client v.vendor).insert v = .ok (true, c) := hc
  refine Action.ends_within.2 ?_
  rw [Action.run_get_bind, hc]
  exact ⟨rfl, rfl⟩

end Gateway

end VoucherGateway
