import VoucherGateway.Proofs.Stores.Service

/-!
# Exactness — stores that may be used by anybody, in any order

The three stores begin empty.  They are then asked one thing after the other, by whoever likes, and between two
requests any calls may be made to fail from then on.  Whatever becomes of a request is written into a journal.
Uses are listed newest first, journals oldest first.

Main statement: the stores hold exactly what their journal says; they refuse a request only for an outage, and
answer it rightly otherwise; and what is turned down leaves no trace (`holds_exactly`).
-/

namespace VoucherGateway

variable {S : Scheme}

/-- What is done with stores. -/
inductive StoreUse (S : Scheme)
  | asked (r : StoreRequest S)
  /-- From now on other calls fail. -/
  | outages (vouchers : Outage VoucherCall) (unmarked balances : Outage CostCall)

namespace Stores

/-- The stores with other outages. -/
def withOutages (s : Stores S) (vouchers : Outage VoucherCall) (unmarked balances : Outage CostCall) : Stores S where
  vouchers := { s.vouchers with outage := vouchers }
  unmarked := { s.unmarked with outage := unmarked }
  balances := { s.balances with outage := balances }

/-- The journal of stores that begin empty, and the stores at the end of it. -/
def live : List (StoreUse S) → List (StoreEntry S) × Stores S
  | [] => ([], {})
  | .asked r :: earlier =>
    ((live earlier).1 ++ [⟨r, ((live earlier).2.ask r).1⟩], ((live earlier).2.ask r).2)
  | .outages vouchers unmarked balances :: earlier =>
    ((live earlier).1, (live earlier).2.withOutages vouchers unmarked balances)

variable {journal : List (StoreEntry S)} {s t : Stores S}

/-! ## Whole journals -/

theorem Answers.outage_or_right {r : StoreRequest S} {o : Except Error (StoreReply S)} (h : Answers journal s r o) :
    (∃ e, o = .error e ∧ e.IsOutage) ∨ Journal.Right journal r o := by
  cases h with
  | refused out outage => exact .inl ⟨_, rfl, outage⟩
  | served up right => exact .inr right

theorem holds_empty : Holds [] ({} : Stores S) where
  costs which client := by cases which <;> rfl
  vouchers _ _ := rfl
  spent _ _ := rfl
  honest := rfl

theorem alike_withOutages (s : Stores S) (vouchers : Outage VoucherCall) (unmarked balances : Outage CostCall) :
    s.Alike (s.withOutages vouchers unmarked balances) where
  costs which client := by cases which <;> rfl
  chains _ _ := rfl
  misreported := rfl

/-- However the stores are used, their journal is exact and they hold what it says. -/
theorem exact_live (uses : List (StoreUse S)) :
    Journal.Exact (live uses).1 ∧ Holds (live uses).1 (live uses).2 := by
  induction uses with
  | nil => exact ⟨.nil, holds_empty⟩
  | cons use earlier ih =>
    obtain ⟨hexact, hholds⟩ := ih
    cases use with
    | asked r =>
      -- the answer is judged by the journal so far, which is what the stores hold
      obtain ⟨hanswers, hthen⟩ := meets_ask hholds r
      exact ⟨hexact.concat hanswers.outage_or_right, hthen⟩
    | outages vouchers unmarked balances => exact ⟨hexact, hholds.alike (alike_withOutages _ _ _ _)⟩

/-- Nothing that was written is ever taken out of a journal. -/
theorem journal_grows (later uses : List (StoreUse S)) : (live uses).1 <+: (live (later ++ uses)).1 := by
  induction later with
  | nil => exact List.prefix_rfl
  | cons use more ih =>
    cases use with
    | asked r => exact ih.trans (List.prefix_append _ _)
    | outages vouchers unmarked balances => exact ih

/-- Stores that hold the same are alike. -/
theorem Holds.alike_of_idle {e : StoreEntry S} (hs : Holds journal s) (ht : Holds (journal ++ [e]) t) (he : e.Idle) :
    s.Alike t where
  costs which client := by
    have hsame : (((t.costs which).cost client).toNat : Int) = ((s.costs which).cost client).toNat := by
      rw [ht.costs, hs.costs, Journal.net_idle he]
    exact UInt64.toNat_inj.1 (Int.ofNat.inj hsame)
  chains client vendor := by
    refine VoucherChain.eq_of_parts ?_ ?_
    · rw [ht.vouchers, hs.vouchers, Journal.recorded_idle he]
    · rw [ht.spent, hs.spent, Journal.marked_idle he]
  misreported := ht.honest.trans hs.honest.symm

/-! ## Faithful stores -/

/-- What is promised of stores with a journal. -/
structure Faithful (journal : List (StoreEntry S)) (s : Stores S) : Prop where
  /-- Running costs are the sums of the journal, and chains are what was recorded and marked. -/
  holds : Holds journal s
  /-- The sums never leave the range of amounts. -/
  range : ∀ which client, 0 ≤ Journal.net which client journal ∧ Journal.net which client journal ≤ Atoms.top.toNat
  consecutive : ∀ client vendor,
    (s.vouchers.chain client vendor).vouchers.IsChain fun v w => w.nonce.toNat = v.nonce.toNat + 1
  own : ∀ client vendor, ∀ v ∈ (s.vouchers.chain client vendor).vouchers, v.client = client ∧ v.vendor = vendor
  /-- Only recorded vouchers are spent, each once. -/
  spent : ∀ client vendor, ∀ n ∈ (s.vouchers.chain client vendor).spent,
    ∃ v ∈ (s.vouchers.chain client vendor).vouchers, v.nonce = n
  once : ∀ client vendor, (s.vouchers.chain client vendor).spent.Nodup
  /-- What is recorded but not spent is listed oldest first. -/
  oldest_first : ∀ client vendor, (Journal.unspent client vendor journal).Pairwise fun v w => v.nonce < w.nonce
  /-- Recording a voucher never forms a nonce that is out of range. -/
  headroom : ∀ v, (s.vouchers.chain v.client v.vendor).insertChecked v =
    some ((s.vouchers.chain v.client v.vendor).insert v)
  /-- A request fails for an outage exactly when its store is out of service; otherwise it ends rightly. -/
  answers : ∀ r, Answers journal s r (s.ask r).1
  /-- What fails, or is not taken, changes nothing. -/
  untouched : ∀ r, StoreEntry.TurnedDown ⟨r, (s.ask r).1⟩ → s.Alike (s.ask r).2

theorem Holds.faithful (h : Holds journal s) (hexact : Journal.Exact journal) : Faithful journal s where
  holds := h
  range := hexact.net_range
  consecutive client vendor := h.vouchers client vendor ▸ hexact.consecutive client vendor
  own client vendor v hv := Journal.Exact.own (h.vouchers client vendor ▸ hv)
  spent client vendor n hn := by
    rw [h.spent] at hn
    rw [h.vouchers]
    exact hexact.marked_recorded hn
  once client vendor := h.spent client vendor ▸ hexact.marked_nodup client vendor
  oldest_first client vendor := (hexact.ascending client vendor).filter _
  headroom v := VoucherChain.insertChecked_eq _ v
  answers r := (meets_ask h r).1
  untouched r hdown := h.alike_of_idle (meets_ask h r).2 hdown.idle

/-- Stores that begin empty may be asked anything, in any order, while any calls fail: their costs are exact sums of
what was added and taken away, their chains and spent marks only grow, whatever they answer is right, and whatever
they turn down leaves them as they were. -/
theorem holds_exactly (uses : List (StoreUse S)) :
    Faithful (live uses).1 (live uses).2 ∧
    ∀ later client vendor,
      ((live uses).2.vouchers.chain client vendor).vouchers <+:
        ((live (later ++ uses)).2.vouchers.chain client vendor).vouchers ∧
      ((live uses).2.vouchers.chain client vendor).spent <+:
        ((live (later ++ uses)).2.vouchers.chain client vendor).spent := by
  obtain ⟨hexact, hholds⟩ := exact_live uses
  refine ⟨hholds.faithful hexact, fun later client vendor => ?_⟩
  have hthen := (exact_live (later ++ uses)).2
  rw [hholds.vouchers, hholds.spent, hthen.vouchers, hthen.spent]
  exact ⟨(journal_grows later uses).filterMap _, (journal_grows later uses).filterMap _⟩

/-- Costs at the top of the range refuse to grow, and behind the largest nonce no other one is taken. -/
example :
    let top : UInt64 := 0xFFFFFFFFFFFFFFFF
    let voucher (nonce : UInt64) : Voucher .plain := ⟨1, 9, nonce, 100, true⟩
    let uses : List (StoreUse .plain) := [.asked (.add .locked 1 1), .asked (.insert (voucher 0)),
      .asked (.markSpent ⟨1, 9, top⟩), .asked (.insert (voucher top)), .asked (.insert (voucher (top - 1))),
      .asked (.add .locked 1 top)]
    let s := (live uses).2
    (live uses).1.map (·.outcome.isOk) = [true, true, true, true, true, false] ∧
      (s.vouchers.chain 1 9).vouchers.map (·.nonce) = [top - 1, top] ∧
      (s.vouchers.chain 1 9).unspent.map (·.nonce) = [top - 1] ∧ s.balances.cost 1 = top := by
  decide

end Stores
end VoucherGateway
