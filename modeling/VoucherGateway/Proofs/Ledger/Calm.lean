import Mathlib.Data.Nat.Find
import VoucherGateway.Proofs.Ledger.Books
import VoucherGateway.Proofs.Ledger.Spending

/-!
# Calm — clients for whom there is nothing to spend

A client is calm when no spend of it is under way and its oldest voucher that is not spent is worth more than
its unmarked cost.  Only a new voucher, a new charge or a new spend can stir a calm client up
(`Trail.unstirred`).  Main statement: what a calm client has spent is determined by its vouchers and by what it
was charged, whatever the order was in which these came (`Calm.consumes`).
-/

namespace VoucherGateway

variable {S : Scheme}

/-- Whether an entry is a new voucher, a new charge or a new spend of a client. -/
def Entry.Stirs (client : S.Party) : Entry S → Prop
  | .recorded v => v.client = client
  | .begun c _ _ => c = client
  | .charged q _ => q.client = client
  | _ => False

/-- Vouchers and running costs of a client are the same in two ledgers, and no spend is under way. -/
structure Ledger.Unstirred (L : Ledger S) (client : S.Party) (M : Ledger S) : Prop where
  done : M.pending client = none
  chain : M.chain client = L.chain client
  unmarked : M.unmarkedOf client = L.unmarkedOf client

/-- There is nothing to spend for a client. -/
structure Ledger.Calm (L : Ledger S) (client : S.Party) : Prop where
  done : L.pending client = none
  absorbed : L.Absorbed client

namespace Ledger

variable {L M N : Ledger S} {c : S.Party} {e : Entry S} {allowed : Entry S → Prop}

theorem Unstirred.trans (h : L.Unstirred c M) (h' : M.Unstirred c N) : L.Unstirred c N :=
  ⟨h'.done, h'.chain.trans h.chain, h'.unmarked.trans h.unmarked⟩

theorem Calm.unstirred (h : L.Calm c) (hM : L.Unstirred c M) : M.Calm c := by
  refine ⟨hM.done, ?_⟩
  unfold Absorbed
  rw [hM.chain, hM.unmarked]
  exact h.absorbed

/-- An entry that does not stir a client up leaves its vouchers and running costs alone. -/
theorem Sound.unstirred_post (h : L.Sound) (ha : L.Allows e) (hp : L.pending c = none) (he : ¬ e.Stirs c) :
    L.Unstirred c (L.post e) := by
  -- without a spend under way there is none to go on with
  have other : ∀ {client : S.Party} {p : PendingSpend S}, L.pending client = some p → c ≠ client := by
    rintro client p hsome rfl
    rw [hp] at hsome
    cases hsome
  constructor
  · rw [pending_post]
    cases e with
    | begun client v query => exact (if_neg (Ne.symm he)).trans hp
    | marked client p => exact (if_neg (other ha.1)).trans hp
    | completed client p => exact (if_neg (other ha.1)).trans hp
    | _ => exact hp
  · rw [h.chain_post ha]
    cases e with
    | recorded v => exact if_neg (Ne.symm he)
    | marked client p => exact if_neg (other ha.1)
    | _ => rfl
  · rw [unmarkedOf_post]
    cases e with
    | completed client p => exact if_neg (other ha.1)
    | charged q cost => exact if_neg (Ne.symm he)
    | _ => rfl

theorem Trail.unstirred (ht : Trail allowed L M) (hL : L.Sound) (hp : L.pending c = none)
    (hnone : ∀ e, allowed e → ¬ e.Stirs c) : L.Unstirred c M := by
  induction ht with
  | refl => exact ⟨hp, rfl, rfl⟩
  | tail hpath hstep ih =>
    rcases hstep with ⟨e, he, ha, rfl⟩
    exact ih.trans ((hL.trail hpath).unstirred_post ha ih.done (hnone e he))

/-- A voucher that is worth something leaves a client calm who has no unmarked cost. -/
theorem Calm.recorded {v : Voucher S} (h : L.Calm v.client) (hL : L.Sound) (ha : L.Allows (.recorded v))
    (hpos : 0 < v.atoms) (hzero : L.unmarkedOf v.client = 0) : (L.post (.recorded v)).Calm v.client := by
  refine ⟨(pending_post _ _).trans h.done, ?_⟩
  intro w hw
  rw [hL.chain_post ha] at hw
  simp only [if_true, VoucherChain.unspent, List.filter_append] at hw
  rw [unmarkedOf_post]
  -- an older voucher that is not spent stays in front of the new one
  cases hunspent : (L.chain v.client).unspent with
  | nil =>
    rw [show (L.chain v.client).vouchers.filter _ = [] from hunspent, List.nil_append] at hw
    obtain rfl : w = v := List.mem_singleton.1 (List.mem_of_mem_filter (List.mem_of_mem_head? hw))
    exact hzero ▸ hpos
  | cons x rest =>
    rw [show (L.chain v.client).vouchers.filter _ = x :: rest from hunspent] at hw
    obtain rfl : x = w := Option.some.inj hw
    exact h.absorbed x (by rw [hunspent]; rfl)

end Ledger

/-! ## What is consumed -/

/-- How many vouchers a total covers from the front on: the greatest number whose atoms do not exceed it. -/
def coveredCount (vs : List (Voucher S)) (total : Nat) : Nat :=
  Nat.findGreatest (fun k => ((vs.take k).map (·.atoms.toNat)).sum ≤ total) vs.length

/-- Vouchers in front are all that a total covers if it covers them, but not the next one as well. -/
theorem coveredCount_append {front rest : List (Voucher S)} {total : Nat}
    (hfront : (front.map (·.atoms.toNat)).sum ≤ total)
    (hrest : ∀ v ∈ rest.head?, total < (front.map (·.atoms.toNat)).sum + v.atoms.toNat) :
    coveredCount (front ++ rest) total = front.length := by
  refine Nat.findGreatest_eq_iff.2 ⟨by simp, fun _ => by simpa using hfront, ?_⟩
  intro n hlt hle hcovered
  cases rest with
  | nil =>
    rw [List.append_nil] at hle
    omega
  | cons v rest =>
    -- more than the front takes the next voucher as well
    obtain ⟨k, rfl⟩ : ∃ k, n = front.length + (k + 1) := ⟨n - front.length - 1, by omega⟩
    have hnext := hrest v rfl
    rw [List.take_length_add_append, List.take_succ_cons] at hcovered
    simp only [List.map_append, List.sum_append, List.map_cons, List.sum_cons] at hcovered
    omega

/-- The vouchers that a total covers from the front on. -/
def covered (vs : List (Voucher S)) (total : Nat) : List (Voucher S) := vs.take (coveredCount vs total)

/-- A client's vouchers are spent and handed over, from the oldest on, as far as a total covers them, and the
rest of the total is unmarked. -/
structure Ledger.Consumes (L : Ledger S) (client : S.Party) (total : Nat) : Prop where
  spent : (L.chain client).spent = (covered (L.chain client).vouchers total).map (·.nonce)
  handed : L.handed client = covered (L.chain client).vouchers total
  unmarked : (L.unmarkedOf client).toNat +
    ((covered (L.chain client).vouchers total).map (·.atoms.toNat)).sum = total

namespace Ledger

variable {L M : Ledger S} {c : S.Party}

/-- What a calm client was charged is consumed. -/
theorem Calm.consumes (h : L.Calm c) (hL : L.Sound) : L.Consumes c (L.books c) := by
  obtain ⟨rest, hrest⟩ := hL.handed c
  rw [h.done] at hrest
  have hvouchers : L.handed c ++ rest = (L.chain c).vouchers := by simpa using hrest
  have hunspent : (L.chain c).unspent = rest :=
    hL.unspent_eq (by rw [unreduced_eq_none h.done, ← hvouchers]; simp)
  have hcount : coveredCount (L.chain c).vouchers (L.books c) = (L.handed c).length := by
    rw [← hvouchers]
    refine coveredCount_append (Nat.le_add_left _ _) fun v hv => ?_
    have hlt := UInt64.lt_iff_toNat_lt.1 (h.absorbed v (hunspent ▸ hv))
    unfold books
    omega
  have hcovered : covered (L.chain c).vouchers (L.books c) = L.handed c := by
    unfold covered
    rw [hcount, ← hvouchers, List.take_left]
  constructor
  · rw [hcovered, hL.spent c, unreduced_eq_none h.done]
    simp
  · exact hcovered.symm
  · rw [hcovered]
    rfl

/-- The same vouchers are accepted in the same order, which is that of their nonces. -/
theorem Sound.vouchers_eq (hL : L.Sound) (hM : M.Sound)
    (h : ∀ v, v ∈ (L.chain c).vouchers ↔ v ∈ (M.chain c).vouchers) :
    (L.chain c).vouchers = (M.chain c).vouchers := by
  have hperm : (L.chain c).vouchers.Perm (M.chain c).vouchers :=
    (List.perm_ext_iff_of_nodup (hL.nonces_nodup c).of_map (hM.nonces_nodup c).of_map).2 h
  refine hperm.eq_of_pairwise ?_ (hL.nonces_lt c) (hM.nonces_lt c)
  intro v w _ _ hlt hgt
  exact absurd (UInt64.lt_trans hlt hgt) (UInt64.lt_irrefl _)

/-- Where the same vouchers are accepted and the same total is consumed, the same is spent, handed over and
unmarked. -/
theorem Consumes.unique {total : Nat} (h : L.Consumes c total) (h' : M.Consumes c total)
    (hsame : (L.chain c).vouchers = (M.chain c).vouchers) :
    (L.chain c).spent = (M.chain c).spent ∧ L.unmarkedOf c = M.unmarkedOf c ∧ L.handed c = M.handed c := by
  refine ⟨?_, ?_, ?_⟩
  · rw [h.spent, h'.spent, hsame]
  · have hsum := h.unmarked.trans h'.unmarked.symm
    rw [hsame] at hsum
    exact UInt64.toNat_inj.1 (Nat.add_right_cancel hsum)
  · rw [h.handed, h'.handed, hsame]

end Ledger
end VoucherGateway
