import Mathlib.Algebra.Order.BigOperators.Group.List
import Mathlib.Algebra.Order.Ring.Nat
import Mathlib.Data.List.Infix
import VoucherGateway.Proofs.Ledger.Rows

/-!
# Sound ledgers — what never fails to hold of a ledger

A client's vouchers have consecutive nonces.  From the oldest on they are handed over for settlement; behind
those stands at most one voucher whose spend is under way, and what is marked spent is exactly what is handed
over, and that voucher if its spend got so far.  The locked cost is the sum of the estimates that are locked.

This module states the invariant and what follows from it; that every entry keeps it is the next.
-/

namespace VoucherGateway

variable {S : Scheme}

theorem Atoms.toNat_add_of_fits {a b : Atoms} (h : a.toNat + b.toNat ≤ Atoms.top.toNat) :
    (a + b).toNat = a.toNat + b.toNat := by
  rw [UInt64.toNat_add]
  refine Nat.mod_eq_of_lt ?_
  rw [Atoms.toNat_top] at h
  omega

theorem Atoms.toNat_foldl_plus (a : Atoms) (as : List Atoms) :
    (as.foldl plus a).toNat = min (a.toNat + (as.map (·.toNat)).sum) 0xFFFFFFFFFFFFFFFF := by
  induction as generalizing a with
  | nil =>
    have htop := toNat_le_top a
    simp only [List.foldl_nil, List.map_nil, List.sum_nil]
    omega
  | cons b rest ih =>
    rw [List.foldl_cons, ih, toNat_plus, List.map_cons, List.sum_cons]
    omega

/-- A sum that stops at the largest amount is the exact one as long as that is in range. -/
theorem Atoms.toNat_total (as : List Atoms) :
    (total as).toNat = min (as.map (·.toNat)).sum 0xFFFFFFFFFFFFFFFF := by
  simpa [total] using toNat_foldl_plus 0 as

/-- What a query contributes to the locked cost of a client. -/
def Query.heldFor (client : S.Party) (q : Query S) : Nat :=
  if q.client = client ∧ q.holds = true then q.estimated.toNat else 0

/-! ## Queueing a voucher -/

/-- The newest nonce is that of the last voucher handed over. -/
theorem ClientSettlement.newest?_eq (c : ClientSettlement S) : c.newest? = c.handed.getLast?.map (·.nonce) := by
  unfold newest? ClientSettlement.handed
  rw [List.getLast?_append, List.getLast?_map]
  cases c.unsettled.getLast? with
  | some v => rfl
  | none => cases c.settled.getLast? <;> rfl

theorem ClientSettlement.newest_mem {c : ClientSettlement S} {n : UInt64} (h : c.newest? = some n) :
    ∃ v ∈ c.handed, v.nonce = n := by
  rw [newest?_eq] at h
  obtain ⟨v, hv, rfl⟩ := Option.map_eq_some_iff.1 h
  exact ⟨v, List.mem_of_getLast? hv, rfl⟩

/-- A voucher newer than everything handed over is queued. -/
theorem ClientSettlement.push_of_newer {c : ClientSettlement S} {v : Voucher S}
    (h : ∀ w ∈ c.handed, w.nonce < v.nonce) :
    c.push v = (true, { c with unsettled := c.unsettled ++ [v] }) := by
  have hnew : c.newest?.any (fun n => decide (v.nonce ≤ n)) = false := by
    cases hn : c.newest? with
    | none => rfl
    | some n =>
      obtain ⟨w, hw, rfl⟩ := newest_mem hn
      simpa using h w hw
  unfold push
  rw [hnew]
  rfl

namespace Ledger

/-- What never fails to hold of a ledger. -/
structure Sound (L : Ledger S) : Prop where
  honest : L.misreported = none
  numbered : L.queries.Numbered
  rows : ∀ q ∈ L.queries.rows, q.Sound
  nonces : ∀ c, (L.chain c).vouchers.map (·.nonce.toNat) =
    List.range' (L.genesis.toNat + 1) (L.chain c).vouchers.length
  parties : ∀ c, ∀ v ∈ (L.chain c).vouchers, v.client = c ∧ v.vendor = L.vendor
  handed : ∀ c, L.handed c ++ ((L.pending c).map (·.voucher)).toList <+: (L.chain c).vouchers
  spent : ∀ c, (L.chain c).spent = (L.handed c ++ (L.unreduced c).toList).map (·.nonce)
  covered : ∀ c p, L.pending c = some p → p.voucher.atoms ≤ L.unmarkedOf c
  serves : ∀ c p id, L.pending c = some p → p.query = some id → L.Serves c id
  locked : ∀ c, (L.lockedOf c).toNat = (L.queries.rows.map (Query.heldFor c)).sum

variable {L : Ledger S} {c : S.Party}

/-! ## Nonces -/

namespace Sound

theorem nonces_lt (h : L.Sound) (c : S.Party) :
    (L.chain c).vouchers.Pairwise fun v w => v.nonce < w.nonce := by
  have hp : ((L.chain c).vouchers.map (·.nonce.toNat)).Pairwise (· < ·) := by
    rw [h.nonces c]
    exact List.pairwise_lt_range'
  exact (List.pairwise_map.1 hp).imp fun hlt => UInt64.lt_iff_toNat_lt.2 hlt

theorem nonces_nodup (h : L.Sound) (c : S.Party) : ((L.chain c).vouchers.map (·.nonce)).Nodup :=
  List.pairwise_map.2 ((h.nonces_lt c).imp fun hlt e => by simp [e] at hlt)

/-- The newest nonce, or the one before the first. -/
theorem latest (h : L.Sound) (c : S.Party) :
    ((L.chain c).latest?.getD L.genesis).toNat = L.genesis.toNat + (L.chain c).vouchers.length := by
  have hn := h.nonces c
  rcases List.eq_nil_or_concat (L.chain c).vouchers with hnil | ⟨vs, v, hv⟩
  · simp [VoucherChain.latest?, hnil]
  · rw [List.concat_eq_append] at hv
    rw [hv, List.length_append, List.length_singleton, List.range'_concat, List.map_append] at hn
    have hlast : v.nonce.toNat = L.genesis.toNat + 1 + vs.length := by
      simpa using (List.append_inj' hn rfl).2
    simp [VoucherChain.latest?, hv, hlast]
    omega

theorem pending_mem (h : L.Sound) {c : S.Party} {p : PendingSpend S} (hp : L.pending c = some p) :
    p.voucher ∈ (L.chain c).vouchers := by
  have := h.handed c
  rw [hp] at this
  exact this.subset (by simp)

theorem pending_parties (h : L.Sound) {c : S.Party} {p : PendingSpend S} (hp : L.pending c = some p) :
    p.voucher.client = c ∧ p.voucher.vendor = L.vendor :=
  h.parties c _ (h.pending_mem hp)

/-- Whatever is handed over is older than a voucher behind it. -/
theorem handed_lt (h : L.Sound) {c : S.Party} {v : Voucher S}
    (hv : L.handed c ++ [v] <+: (L.chain c).vouchers) : ∀ w ∈ L.handed c, w.nonce < v.nonce := by
  have hp := (h.nonces_lt c).sublist hv.sublist
  intro w hw
  exact (List.pairwise_append.1 hp).2.2 w hw v (List.mem_singleton_self v)

/-- Exactly the vouchers in front are marked spent. -/
theorem contains_spent (h : L.Sound) {c : S.Party} {rest : List (Voucher S)}
    (hr : (L.chain c).vouchers = L.handed c ++ (L.unreduced c).toList ++ rest) :
    (∀ v ∈ L.handed c ++ (L.unreduced c).toList, (L.chain c).spent.contains v.nonce = true) ∧
      ∀ v ∈ rest, (L.chain c).spent.contains v.nonce = false := by
  have hn := h.nonces_nodup c
  rw [hr, List.map_append] at hn
  rw [h.spent c]
  constructor
  · intro v hv
    exact List.contains_iff_mem.2 (List.mem_map.2 ⟨v, hv, rfl⟩)
  · intro v hv
    rw [Bool.eq_false_iff]
    intro hin
    exact (List.nodup_append.1 hn).2.2 _ (List.contains_iff_mem.1 hin) _ (List.mem_map_of_mem hv) rfl

theorem unspent_eq (h : L.Sound) {c : S.Party} {rest : List (Voucher S)}
    (hr : (L.chain c).vouchers = L.handed c ++ (L.unreduced c).toList ++ rest) :
    (L.chain c).unspent = rest := by
  obtain ⟨hfront, hrest⟩ := h.contains_spent hr
  unfold VoucherChain.unspent
  rw [hr, List.filter_append, List.filter_eq_nil_iff.2, List.filter_eq_self.2, List.nil_append]
  · intro v hv
    rw [hrest v hv]
    rfl
  · intro v hv
    rw [hfront v hv]
    simp

/-- Every voucher marked spent is handed over, but for one whose atoms are not taken off yet. -/
theorem spent_vouchers (h : L.Sound) (c : S.Party) :
    (L.chain c).vouchers.filter (fun v => (L.chain c).spent.contains v.nonce) =
        L.handed c ++ (L.unreduced c).toList ∧
      L.handed c ++ (L.unreduced c).toList <+: (L.chain c).vouchers := by
  have hpre : L.handed c ++ (L.unreduced c).toList <+: (L.chain c).vouchers := by
    refine List.IsPrefix.trans ?_ (h.handed c)
    refine (List.prefix_append_right_inj _).2 ?_
    -- a spend whose voucher is not marked yet counts for the order, but not for the marks
    unfold unreduced
    cases L.pending c with
    | none => exact List.prefix_rfl
    | some p => cases hm : p.marked <;> simp [Option.filter_some, hm]
  obtain ⟨rest, hr⟩ := hpre
  obtain ⟨hfront, hrest⟩ := h.contains_spent hr.symm
  refine ⟨?_, rest, hr⟩
  rw [← hr, List.filter_append, List.filter_eq_self.2 hfront, List.filter_eq_nil_iff.2, List.append_nil]
  intro v hv
  rw [hrest v hv]
  simp

/-- The voucher of a spend that is begun can be marked, once. -/
theorem markable (h : L.Sound) {c : S.Party} {p : PendingSpend S} (hp : L.pending c = some p)
    (hm : p.marked = false) :
    (L.chain c).spent.contains p.voucher.nonce = false ∧
      (L.chain c).markSpent p.voucher.id =
        .ok { L.chain c with spent := (L.chain c).spent ++ [p.voucher.nonce] } := by
  have hpre := h.handed c
  rw [hp] at hpre
  -- the marked ones are handed over, and the voucher of a spend under way is newer than those
  have hfresh : (L.chain c).spent.contains p.voucher.nonce = false := by
    rw [Bool.eq_false_iff]
    intro hin
    rw [h.spent c, unreduced, hp, Option.filter_some, hm] at hin
    obtain ⟨w, hw, he⟩ := List.mem_map.1 (List.contains_iff_mem.1 hin)
    have hlt := h.handed_lt hpre w (by simpa using hw)
    rw [he] at hlt
    exact absurd hlt (UInt64.lt_irrefl _)
  have hany : (L.chain c).vouchers.any (fun v => decide (v.nonce = p.voucher.id.nonce)) = true :=
    List.any_eq_true.2 ⟨p.voucher, h.pending_mem hp, decide_eq_true rfl⟩
  refine ⟨hfresh, ?_⟩
  unfold VoucherChain.markSpent
  rw [if_pos hany]
  exact if_neg (Bool.eq_false_iff.1 hfresh)

end Sound

theorem unreduced_eq_none (hp : L.pending c = none) : L.unreduced c = none := by
  simp [unreduced, hp]

/-! ## Queries on record -/

theorem Sound.same (h : L.Sound) {x q : Query S} (hx : x ∈ L.queries.rows) (hq : q ∈ L.queries.rows)
    (e : x.id = q.id) : x = q :=
  eq_of_mem_of_id_eq h.numbered.nodup hx hq e

/-- A query that is not finished can use up vouchers. -/
theorem Sound.serves_of_mem (h : L.Sound) {q : Query S} (hq : q ∈ L.queries.rows) (hst : q.state = .locked) :
    L.Serves q.client q.id := by
  refine ⟨h.numbered.below q hq, ?_⟩
  intro x hx hid
  obtain rfl := h.same hx hq hid
  exact ⟨rfl, by simp [hst]⟩

theorem Sound.heldFor_of_stale (h : L.Sound) {x : Query S} (hx : x ∈ L.queries.rows) {asOf retention : Nat}
    (hst : x.isStale asOf retention = true) : x.heldFor c = 0 := by
  have hfin : x.finishedAt.isSome = true := by
    unfold Query.isStale at hst
    cases hf : x.finishedAt with
    | none => simp [hf] at hst
    | some t => rfl
  have hstate := (h.rows x hx).finished_iff.1 hfin
  simp [Query.heldFor, Query.holds, hstate]

/-- An estimate that is locked can be unlocked. -/
theorem Sound.held_le (h : L.Sound) {q : Query S} (hq : q ∈ L.queries.rows) (hst : q.state = .locked)
    (hrel : q.released = false) : q.estimated ≤ L.lockedOf q.client := by
  have hheld : q.heldFor q.client = q.estimated.toNat := by simp [Query.heldFor, Query.holds, hst, hrel]
  rw [UInt64.le_iff_toNat_le, h.locked, ← hheld]
  exact List.single_le_sum (fun _ _ => Nat.zero_le _) _ (List.mem_map_of_mem hq)

/-- What is within the credit can be locked. -/
theorem fits_of_le_raw {estimated grace : Atoms} (h : estimated ≤ (L.credit c).raw grace) :
    (L.lockedOf c).toNat + estimated.toNat ≤ Atoms.top.toNat := by
  have hle := UInt64.le_iff_toNat_le.1 h
  have hmax := Atoms.toNat_le_top (L.lockedOf c)
  rw [CreditState.toNat_raw] at hle
  rw [Atoms.toNat_top]
  simp only [credit] at hle
  omega

end Ledger
end VoucherGateway
