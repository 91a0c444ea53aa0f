import VoucherGateway.Proofs.Ledger.Preservation
import VoucherGateway.Proofs.Ledger.Writes

/-!
# Spending in the ledger — every spend runs its course

A spend is three entries: it is begun, its voucher is marked, and it is completed.  A store may fail between
any two of them; the next operation that spends or reserves takes the spend up where it was left.

Main statement: whatever broke off before, `absorb` leaves no spend under way and no voucher that the
unmarked cost covers, or it fails because a store did not answer (`writes_absorb`).
-/

namespace VoucherGateway

variable {S : Scheme}

/-- The entries by which a spend of a client is finished. -/
def Entry.Finishes (client : S.Party) : Entry S → Prop
  | .marked c _ | .completed c _ => c = client
  | _ => False

/-- The entries by which vouchers of a client are spent on account of a query. -/
def Entry.SpendsFor (client : S.Party) (query : Option QueryId) : Entry S → Prop
  | .begun c _ q => c = client ∧ q = query
  | e => e.Finishes client

/-- The entries by which vouchers of a client are spent. -/
def Entry.Spends (client : S.Party) : Entry S → Prop
  | .begun c _ _ => c = client
  | e => e.Finishes client

theorem Entry.Finishes.spendsFor {client : S.Party} {query : Option QueryId} {e : Entry S}
    (h : e.Finishes client) : e.SpendsFor client query := by
  cases e with
  | begun _ _ _ => cases h
  | _ => exact h

theorem Entry.SpendsFor.spends {client : S.Party} {query : Option QueryId} {e : Entry S}
    (h : e.SpendsFor client query) : e.Spends client := by
  cases e with
  | begun _ _ _ => exact h.1
  | _ => exact h

theorem Entry.Spends.subject {client : S.Party} {e : Entry S} (h : e.Spends client) : e.subject = none := by
  cases e with
  | begun _ _ _ => rfl
  | marked _ _ => rfl
  | completed _ _ => rfl
  | _ => cases h

/-- The client's oldest voucher that is not spent is worth more than the unmarked cost. -/
def Ledger.Absorbed (L : Ledger S) (client : S.Party) : Prop :=
  ∀ v ∈ (L.chain client).unspent.head?, L.unmarkedOf client < v.atoms

/-- The spend of a client's voucher is done. -/
structure Ledger.Spent (L : Ledger S) (client : S.Party) (v : Voucher S) (left : Atoms) (M : Ledger S) :
    Prop where
  done : M.pending client = none
  vouchers : (M.chain client).vouchers = (L.chain client).vouchers
  handed : M.handed client = L.handed client ++ [v]
  left : left = M.unmarkedOf client
  serves : ∀ id, L.Serves client id → M.Serves client id

namespace Gateway

variable {g : Gateway S} {L : Ledger S} {client : S.Party} {p : PendingSpend S}

theorem ends_completeSpend (hL : L.Sound) (hg : g.ledger = L) (hp : L.pending client = some p) :
    Ends
      (fun a g' => g'.ledger = L.post (.completed client p) ∧
        a = (L.post (.completed client p)).unmarkedOf client)
      (fun e g' => g'.ledger = L ∧ e.IsOutage) ((completeSpend client p).run g) := by
  obtain ⟨hc, -⟩ := hL.pending_parties hp
  have hpre := hL.handed client
  rw [hp] at hpre
  have hpush : (L.settlement.push p.voucher).1 = true := by
    have := ClientSettlement.push_of_newer (hL.handed_lt hpre)
    unfold Settlement.push
    rw [hc]
    exact congrArg Prod.fst this
  unfold completeSpend
  refine Action.ends_bind (ends_subtractUnmarked client p.voucher.atoms hg (hL.covered client p hp)) ?_
  rintro a g' ⟨hg', ha⟩
  -- taking off the atoms left the queue as it was
  have hqueue : g'.settlement.push p.voucher = (true, (L.settlement.push p.voucher).2) := by
    rw [show g'.settlement = L.settlement from congrArg Ledger.settlement hg']
    exact Prod.ext hpush rfl
  have hleft : (L.post (.completed client p)).unmarkedOf client = a := by
    rw [Ledger.unmarkedOf_post, ha]
    exact if_pos rfl
  simp only [ledger, Ledger.mk.injEq] at hg'
  rw [Action.run_update_bind]
  cases hq : p.query with
  | none =>
    simp only [Action.run_get_bind, hqueue, Action.run_set_bind, if_true, Action.run_pure]
    exact ⟨by simp [ledger, Ledger.post, hq, hg', ha], hleft.symm⟩
  | some id =>
    simp only [updateQuery, Action.run_update_bind, Action.run_get_bind, hqueue, Action.run_set_bind, if_true,
      Action.run_pure]
    exact ⟨by simp [ledger, Ledger.post, hq, hg', ha], hleft.symm⟩

/-- Marking the voucher of a spend that is begun, up to the note that it is marked. -/
theorem ends_markPending (hL : L.Sound) (hg : g.ledger = L) (hp : L.pending client = some p)
    (hm : p.marked = false) {mark : Step S Unit}
    (hmark : mark = onVouchers (VoucherStore.markSpent p.voucher.id) ∨ mark = ensureMarked p.voucher.id) :
    Ends (fun _ g' => g'.ledger = L.post (.marked client p)) (fun e g' => g'.ledger = L ∧ e.IsOutage)
      ((do mark; noteMarked client).run g) := by
  obtain ⟨hfresh, hchain⟩ := hL.markable hp hm
  obtain ⟨rfl, hv⟩ := hL.pending_parties hp
  have hmarked : Ends
      (fun _ g' => g'.ledger = { L with
        chains := L.chains.put (p.voucher.client, p.voucher.vendor)
          { L.chain p.voucher.client with spent := (L.chain p.voucher.client).spent ++ [p.voucher.nonce] } })
      (fun e g' => g'.ledger = L ∧ e.IsOutage) (mark.run g) := by
    rcases hmark with rfl | rfl
    · exact ends_markSpent hg hv hchain
    · -- a spend that is taken up again asks first whether the voucher was marked after all
      refine Action.ends_bind (ends_isSpent p.voucher hg hv) ?_
      rintro a g' ⟨hg', rfl⟩
      rw [hfresh]
      exact ends_markSpent hg' hv hchain
  refine Action.ends_bind hmarked ?_
  intro _ g' hg'
  simp only [ledger, Ledger.mk.injEq] at hg'
  simp only [noteMarked, Action.run_update]
  simp [Ends, ledger, Ledger.post, hg', Ledger.chain, hv]

variable {allowed : Entry S → Prop}

theorem writes_completeSpend (hal : ∀ e, Entry.Finishes client e → allowed e) (hL : L.Sound)
    (hg : g.ledger = L) (hp : L.pending client = some p) (hm : p.marked = true) :
    Writes allowed L (L.Spent client p.voucher) (fun e _ => e.IsOutage) ((completeSpend client p).run g) := by
  have ha : L.Allows (.completed client p) := ⟨hp, hm⟩
  refine Writes.of_ends (ends_completeSpend hL hg hp) (.post (hal _ rfl) ha) ?_ fun _ h => h
  rintro a rfl
  constructor
  · rw [Ledger.pending_post]
    exact if_pos rfl
  · rw [hL.chain_post ha]
  · rw [hL.handed_post ha]
    exact if_pos rfl
  · rfl
  · intro id hs
    exact hL.serves_post ha hs (by simp [hp])

/-- A spend that is begun is finished, whichever way its voucher is marked. -/
theorem writes_markAndComplete (hal : ∀ e, Entry.Finishes client e → allowed e) (hL : L.Sound)
    (hg : g.ledger = L) (hp : L.pending client = some p) (hm : p.marked = false) {mark : Step S Unit}
    (hmark : mark = onVouchers (VoucherStore.markSpent p.voucher.id) ∨ mark = ensureMarked p.voucher.id) :
    Writes allowed L (L.Spent client p.voucher) (fun e _ => e.IsOutage)
      ((do mark; noteMarked client; completeSpend client p).run g) := by
  have ha : L.Allows (.marked client p) := ⟨hp, hm⟩
  have hM := hL.post ha
  have hpM : (L.post (.marked client p)).pending client = some { p with marked := true } := by
    simp [Ledger.pending_post, hp]
  have hends : Ends (fun _ g' => g'.ledger = L.post (.marked client p) ∧ True)
      (fun e g' => g'.ledger = L ∧ e.IsOutage) ((do mark; noteMarked client).run g) :=
    (ends_markPending hL hg hp hm hmark).mono (fun _ _ h => ⟨h, trivial⟩) fun _ _ h => h
  rw [← bind_assoc]
  refine Writes.step hends (.post (hal _ rfl) ha) (fun _ h => h) ?_
  intro _ g' hg' _
  refine (writes_completeSpend hal hM hg' hpM rfl).mono ?_ fun _ _ _ h => h
  intro a M _ h
  constructor
  · exact h.done
  · rw [h.vouchers, hL.chain_post ha]
    dsimp only
    split <;> rfl
  · rw [h.handed, hL.handed_post ha]
  · exact h.left
  · intro id hs
    exact h.serves id (hL.serves_post ha hs (by simp [hp]))

theorem writes_spend {query : Option QueryId} (hal : ∀ e, Entry.SpendsFor client query e → allowed e)
    (hL : L.Sound) (hg : g.ledger = L) {v : Voucher S} (ha : L.Allows (.begun client v query)) :
    Writes allowed L (L.Spent client v) (fun e _ => e.IsOutage) ((spend client v query).run g) := by
  have hpM : (L.post (.begun client v query)).pending client = some { voucher := v, query := query } := by
    rw [Ledger.pending_post]
    exact if_pos rfl
  unfold spend
  rw [Action.run_update_bind]
  refine Writes.after (.post (hal (.begun client v query) ⟨rfl, rfl⟩) ha) ?_
  have hbegun : Gateway.ledger { g with
      interrupted := g.interrupted.put client { voucher := v, query := query } } =
      L.post (.begun client v query) := by
    subst hg
    rfl
  have hdone := writes_markAndComplete (fun e he => hal e he.spendsFor) (hL.post ha) hbegun hpM rfl (.inl rfl)
  refine hdone.mono ?_ fun _ _ _ h => h
  intro a M _ h
  constructor
  · exact h.done
  · rw [h.vouchers, hL.chain_post ha]
  · rw [h.handed, hL.handed_post ha]
  · exact h.left
  · exact h.serves

/-- Whatever spend of the client broke off is complete afterwards. -/
theorem writes_resumeSpend (hal : ∀ e, Entry.Finishes client e → allowed e) (hL : L.Sound)
    (hg : g.ledger = L) :
    Writes allowed L
      (fun a M => M.pending client = none ∧ a.getD (L.unmarkedOf client) = M.unmarkedOf client ∧
        ∀ id, L.Serves client id → M.Serves client id)
      (fun e _ => e.IsOutage) ((resumeSpend client).run g) := by
  unfold resumeSpend
  rw [Action.run_get_bind]
  have hpend : g.interrupted.get? client = L.pending client := by
    subst hg
    rfl
  rw [hpend]
  cases hp : L.pending client with
  | none => exact Writes.of_pure hg ⟨hp, rfl, fun _ h => h⟩
  | some p =>
    have done : ∀ {a : Atoms} {M : Ledger S}, L.Spent client p.voucher a M → ∀ g', g'.ledger = M →
        Writes allowed M
          (fun a M => M.pending client = none ∧ a.getD (L.unmarkedOf client) = M.unmarkedOf client ∧
            ∀ id, L.Serves client id → M.Serves client id)
          (fun e _ => e.IsOutage) ((pure (some a) : Step S (Option Atoms)).run g') := by
      intro a M h g' hg'
      exact Writes.of_pure hg' ⟨h.done, h.left, h.serves⟩
    dsimp only
    -- a marked voucher is not marked again
    cases hm : p.marked with
    | true => exact Writes.bind (writes_completeSpend hal hL hg hp hm) fun a M _ h => done h
    | false =>
      have h := writes_markAndComplete hal hL hg hp hm (.inr rfl)
      refine Eq.mp ?_ (Writes.bind h fun a M _ h => done h)
      simp only [bind_assoc]
      rfl

/-! ## Spending what is covered -/

/-- Vouchers are spent as long as the unmarked cost covers the oldest one. -/
theorem writes_spendCovered {query : Option QueryId} (hal : ∀ e, Entry.SpendsFor client query e → allowed e)
    (vs : List (Voucher S)) {g : Gateway S} {L : Ledger S} {unmarked : Atoms} (hL : L.Sound)
    (hg : g.ledger = L) (hp : L.pending client = none)
    (hvs : (L.chain client).vouchers = L.handed client ++ vs) (hu : unmarked = L.unmarkedOf client)
    (hq : ∀ id, query = some id → L.Serves client id) :
    Writes allowed L (fun _ M => M.pending client = none ∧ M.Absorbed client) (fun e _ => e.IsOutage)
      ((spendCovered client query vs unmarked).run g) := by
  have hunspent : (L.chain client).unspent = vs :=
    hL.unspent_eq (by rw [Ledger.unreduced_eq_none hp]; simpa using hvs)
  -- `vs` is what is left of the chain behind the vouchers handed over; every round hands over its head
  induction vs generalizing g L unmarked with
  | nil =>
    refine Writes.of_pure hg ⟨hp, ?_⟩
    intro v hv
    rw [hunspent] at hv
    cases hv
  | cons v rest ih =>
    subst hu
    unfold spendCovered
    split
    · next hlt =>
      refine Writes.of_pure hg ⟨hp, ?_⟩
      intro w hw
      rw [hunspent] at hw
      cases hw
      exact hlt
    · next hle =>
      have hcov : v.atoms ≤ L.unmarkedOf client := UInt64.not_lt.1 hle
      have hpre : L.handed client ++ [v] <+: (L.chain client).vouchers := ⟨rest, by simp [hvs]⟩
      refine Writes.bind (writes_spend hal hL hg ⟨hp, hpre, hcov, hq⟩) ?_
      intro left M ht h g' hg'
      have hvsM : (M.chain client).vouchers = M.handed client ++ rest := by
        rw [h.vouchers, h.handed, hvs]
        simp
      have hM := hL.trail ht
      exact ih hM hg' h.done hvsM h.left (fun id he => h.serves id (hq id he))
        (hM.unspent_eq (by rw [Ledger.unreduced_eq_none h.done]; simpa using hvsM))

/-- What broke off is finished, and what is covered is spent. -/
theorem writes_absorb {query : Option QueryId} (hal : ∀ e, Entry.SpendsFor client query e → allowed e)
    {unmarked : Atoms} (hL : L.Sound) (hg : g.ledger = L) (hu : unmarked = L.unmarkedOf client)
    (hq : ∀ id, query = some id → L.Serves client id) :
    Writes allowed L (fun _ M => M.pending client = none ∧ M.Absorbed client) (fun e _ => e.IsOutage)
      ((absorb client unmarked query).run g) := by
  subst hu
  unfold absorb
  refine Writes.bind (writes_resumeSpend (fun e he => hal e he.spendsFor) hL hg) ?_
  rintro resumed M ht ⟨hp, hleft, hserves⟩ g' hg'
  have hM := hL.trail ht
  rw [Action.run_get_bind]
  refine Writes.step (ends_unspent client hg' (congrArg Ledger.vendor hg')) .refl (fun _ h => h) ?_
  rintro vs g'' hg'' rfl
  obtain ⟨rest, hrest⟩ := hM.handed client
  rw [hp] at hrest
  have hvs : (M.chain client).vouchers = M.handed client ++ rest := by simpa using hrest.symm
  have hunspent : (M.chain client).unspent = rest :=
    hM.unspent_eq (by rw [Ledger.unreduced_eq_none hp]; simpa using hvs)
  rw [hunspent]
  exact writes_spendCovered hal rest hM hg'' hp hvs hleft fun id he => hserves id (hq id he)

end Gateway
end VoucherGateway
