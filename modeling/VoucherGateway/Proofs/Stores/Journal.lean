import Mathlib.Algebra.Order.Ring.Int
import Mathlib.Data.List.Chain
import Mathlib.Data.List.DropRight
import VoucherGateway.Proofs.Ledger.Calls

/-!
# Journals — what stores were asked, and how they should answer

A journal lists what the stores were asked and what they answered, oldest first.  It tells all that has to be
known of them: a running cost is what was added less what was taken away since it was last forgotten
(`Journal.net`), a chain is the vouchers that were recorded (`Journal.recorded`), and its spent ones are those
that were marked (`Journal.marked`).  Which answers are right is said of journals alone, in numbers that never
wrap (`Journal.Right`).

Main statements: in a journal whose answers are right no running cost leaves the range of amounts
(`Exact.net_range`), the vouchers recorded for a client and a vendor have consecutive nonces
(`Exact.consecutive`), and only recorded vouchers are marked, each once (`Exact.marked_recorded`,
`Exact.marked_nodup`).
-/

namespace VoucherGateway

variable {S : Scheme}

/-- What stores are asked. -/
inductive StoreRequest (S : Scheme)
  | read (which : RunningCost) (client : S.Party)
  | add (which : RunningCost) (client : S.Party) (atoms : Atoms)
  | subtract (which : RunningCost) (client : S.Party) (atoms : Atoms)
  /-- The unmarked cost of a client is forgotten; the locked cost never is. -/
  | reset (client : S.Party)
  | latestNonce (client vendor : S.Party)
  | insert (v : Voucher S)
  | isSpent (id : VoucherId S)
  | markSpent (id : VoucherId S)
  | unspent (client vendor : S.Party)

/-- What stores answer. -/
inductive StoreReply (S : Scheme)
  | done
  | atoms (a : Atoms)
  | nonce (n : Option UInt64)
  | flag (b : Bool)
  | vouchers (vs : List (Voucher S))

/-- What stores were asked, and how that ended. -/
structure StoreEntry (S : Scheme) where
  request : StoreRequest S
  outcome : Except Error (StoreReply S)

/-- The book of a running cost. -/
def RunningCost.book : RunningCost → CostBook
  | .unmarked => .unmarked
  | .locked => .balances

/-! ## What an entry says -/

namespace StoreEntry

/-- What an entry adds to a running cost of a client; a negative number if it takes away. -/
def change (which : RunningCost) (client : S.Party) : StoreEntry S → Int
  | ⟨.add which' client' atoms, .ok _⟩ => if which' = which ∧ client' = client then atoms.toNat else 0
  | ⟨.subtract which' client' atoms, .ok _⟩ => if which' = which ∧ client' = client then -atoms.toNat else 0
  | _ => 0

/-- Whether by an entry a running cost of a client is forgotten. -/
def resets (which : RunningCost) (client : S.Party) : StoreEntry S → Bool
  | ⟨.reset client', .ok _⟩ => decide (.unmarked = which ∧ client' = client)
  | _ => false

/-- The voucher that an entry records for a client and a vendor. -/
def recorded? (client vendor : S.Party) : StoreEntry S → Option (Voucher S)
  | ⟨.insert v, .ok (.flag true)⟩ => if v.client = client ∧ v.vendor = vendor then some v else none
  | _ => none

/-- The nonce that an entry marks for a client and a vendor. -/
def marked? (client vendor : S.Party) : StoreEntry S → Option UInt64
  | ⟨.markSpent id, .ok _⟩ => if id.client = client ∧ id.vendor = vendor then some id.nonce else none
  | _ => none

/-- Entries of requests that failed, and of vouchers that were not taken. -/
def TurnedDown (e : StoreEntry S) : Prop :=
  (∃ error, e.outcome = .error error) ∨ ∃ v, e.request = .insert v ∧ e.outcome = .ok (.flag false)

/-- Entries that say nothing about costs, vouchers and marks. -/
structure Idle (e : StoreEntry S) : Prop where
  change : ∀ which client, e.change which client = 0 := by intros; rfl
  resets : ∀ which client, e.resets which client = false := by intros; rfl
  recorded : ∀ client vendor, e.recorded? client vendor = none := by intros; rfl
  marked : ∀ client vendor, e.marked? client vendor = none := by intros; rfl

theorem idle_error (r : StoreRequest S) (error : Error) : Idle ⟨r, .error error⟩ := by
  cases r <;> exact {}

theorem TurnedDown.idle {e : StoreEntry S} (h : e.TurnedDown) : e.Idle := by
  obtain ⟨r, o⟩ := e
  obtain ⟨error, rfl⟩ | ⟨v, rfl, rfl⟩ := h
  · exact idle_error r error
  · exact {}

theorem recorded?_eq_some {e : StoreEntry S} {client vendor : S.Party} {v : Voucher S}
    (h : e.recorded? client vendor = some v) :
    e = ⟨.insert v, .ok (.flag true)⟩ ∧ v.client = client ∧ v.vendor = vendor := by
  unfold recorded? at h
  split at h
  · split at h
    · next hown =>
      obtain rfl := Option.some.inj h
      exact ⟨rfl, hown⟩
    · cases h
  · cases h

theorem marked?_eq_some {e : StoreEntry S} {client vendor : S.Party} {n : UInt64}
    (h : e.marked? client vendor = some n) : ∃ reply, e = ⟨.markSpent ⟨client, vendor, n⟩, .ok reply⟩ := by
  unfold marked? at h
  split at h
  · next id reply =>
    split at h
    · next hown =>
      obtain rfl := Option.some.inj h
      obtain ⟨rfl, rfl⟩ := hown
      exact ⟨reply, rfl⟩
    · cases h
  · cases h

end StoreEntry

/-! ## What a journal says -/

namespace Journal

/-- What was added to a running cost of a client less what was taken away, since it was last forgotten. -/
def net (which : RunningCost) (client : S.Party) (journal : List (StoreEntry S)) : Int :=
  ((journal.rtakeWhile fun e => !e.resets which client).map (·.change which client)).sum

/-- The vouchers recorded for a client and a vendor, oldest first. -/
def recorded (client vendor : S.Party) (journal : List (StoreEntry S)) : List (Voucher S) :=
  journal.filterMap (·.recorded? client vendor)

/-- The nonces marked for a client and a vendor, in the order in which they were marked. -/
def marked (client vendor : S.Party) (journal : List (StoreEntry S)) : List UInt64 :=
  journal.filterMap (·.marked? client vendor)

/-- The vouchers recorded but not marked for a client and a vendor, oldest first. -/
def unspent (client vendor : S.Party) (journal : List (StoreEntry S)) : List (Voucher S) :=
  (recorded client vendor journal).filter fun v => v.nonce ∉ marked client vendor journal

theorem net_concat (which : RunningCost) (client : S.Party) (journal : List (StoreEntry S)) (e : StoreEntry S) :
    net which client (journal ++ [e]) =
      if e.resets which client then 0 else net which client journal + e.change which client := by
  unfold net
  rw [List.rtakeWhile_concat]
  cases e.resets which client <;> simp

theorem recorded_concat (client vendor : S.Party) (journal : List (StoreEntry S)) (e : StoreEntry S) :
    recorded client vendor (journal ++ [e]) =
      recorded client vendor journal ++ (e.recorded? client vendor).toList := by
  unfold recorded
  rw [List.filterMap_append]
  cases h : e.recorded? client vendor <;> simp [h]

theorem marked_concat (client vendor : S.Party) (journal : List (StoreEntry S)) (e : StoreEntry S) :
    marked client vendor (journal ++ [e]) = marked client vendor journal ++ (e.marked? client vendor).toList := by
  unfold marked
  rw [List.filterMap_append]
  cases h : e.marked? client vendor <;> simp [h]

section Concat

variable {which : RunningCost} {client vendor : S.Party} {journal : List (StoreEntry S)} {e : StoreEntry S}

theorem net_same (hresets : e.resets which client = false) (hchange : e.change which client = 0) :
    net which client (journal ++ [e]) = net which client journal := by
  rw [net_concat, hresets, hchange]
  simp

theorem net_idle (h : e.Idle) : net which client (journal ++ [e]) = net which client journal :=
  net_same (h.resets which client) (h.change which client)

theorem recorded_idle (h : e.Idle) :
    recorded client vendor (journal ++ [e]) = recorded client vendor journal := by
  rw [recorded_concat, h.recorded]
  exact List.append_nil _

theorem marked_idle (h : e.Idle) : marked client vendor (journal ++ [e]) = marked client vendor journal := by
  rw [marked_concat, h.marked]
  exact List.append_nil _

variable {which' : RunningCost} {client' : S.Party} {reply : StoreReply S}

theorem net_add {atoms : Atoms} :
    net which client (journal ++ [⟨.add which' client' atoms, .ok reply⟩]) =
      if which' = which ∧ client' = client then net which' client' journal + atoms.toNat
      else net which client journal := by
  rw [net_concat]
  simp only [StoreEntry.resets, StoreEntry.change, Bool.false_eq_true, if_false]
  split
  · next hsame => simp [hsame]
  · simp

theorem net_subtract {atoms : Atoms} :
    net which client (journal ++ [⟨.subtract which' client' atoms, .ok reply⟩]) =
      if which' = which ∧ client' = client then net which' client' journal - atoms.toNat
      else net which client journal := by
  rw [net_concat]
  simp only [StoreEntry.resets, StoreEntry.change, Bool.false_eq_true, if_false]
  split
  · next hsame => simp [hsame, sub_eq_add_neg]
  · simp

theorem net_reset :
    net which client (journal ++ [⟨.reset client', .ok reply⟩]) =
      if .unmarked = which ∧ client' = client then 0 else net which client journal := by
  rw [net_concat]
  simp [StoreEntry.resets, StoreEntry.change]

end Concat

/-! ## Right answers -/

/-- The outcomes of a request that are right after a journal.  All comparisons are between numbers, not words. -/
inductive Right (journal : List (StoreEntry S)) : StoreRequest S → Except Error (StoreReply S) → Prop
  | read {which client} {a : Atoms} (total : (a.toNat : Int) = net which client journal) :
    Right journal (.read which client) (.ok (.atoms a))
  | add {which client atoms} {a : Atoms} (total : (a.toNat : Int) = net which client journal + atoms.toNat) :
    Right journal (.add which client atoms) (.ok (.atoms a))
  | overflow {which client atoms} {current : Atoms} (total : (current.toNat : Int) = net which client journal)
    (beyond : Atoms.top.toNat < net which client journal + atoms.toNat) :
    Right journal (.add which client atoms)
      (.error (.violation (.overflow which (S.partyText client) current atoms)))
  | subtract {which client atoms} {a : Atoms} (total : (a.toNat : Int) = net which client journal - atoms.toNat) :
    Right journal (.subtract which client atoms) (.ok (.atoms a))
  | negative {which client atoms} {current : Atoms} (total : (current.toNat : Int) = net which client journal)
    (below : net which client journal < atoms.toNat) :
    Right journal (.subtract which client atoms)
      (.error (.violation (which.book.negative (S.partyText client) current atoms)))
  | reset {client} : Right journal (.reset client) (.ok .done)
  | latestNonce {client vendor} :
    Right journal (.latestNonce client vendor)
      (.ok (.nonce ((recorded client vendor journal).getLast?.map (·.nonce))))
  | first {v} (none_yet : recorded v.client v.vendor journal = []) : Right journal (.insert v) (.ok (.flag true))
  | next {v w} (newest : (recorded v.client v.vendor journal).getLast? = some w)
    (follows : v.nonce.toNat = w.nonce.toNat + 1) : Right journal (.insert v) (.ok (.flag true))
  | old {v w} (newest : (recorded v.client v.vendor journal).getLast? = some w)
    (repeats : v.nonce.toNat ≤ w.nonce.toNat) : Right journal (.insert v) (.ok (.flag false))
  | gap {v w} (newest : (recorded v.client v.vendor journal).getLast? = some w)
    (skips : w.nonce.toNat + 1 < v.nonce.toNat) :
    Right journal (.insert v) (.error (.violation (.nonceSequence (S.partyText v.client)
      s!"insert of nonce {v.nonce} after latest {w.nonce}")))
  | isSpent {id} :
    Right journal (.isSpent id) (.ok (.flag (decide (id.nonce ∈ marked id.client id.vendor journal))))
  | markSpent {id} {v : Voucher S} (known : v ∈ recorded id.client id.vendor journal) (same : v.nonce = id.nonce)
    (unmarked : id.nonce ∉ marked id.client id.vendor journal) : Right journal (.markSpent id) (.ok .done)
  | doubleSpend {id} (spent : id.nonce ∈ marked id.client id.vendor journal) :
    Right journal (.markSpent id) (.error (.violation (.doubleSpend id.text)))
  | unknown {id} (unknown : ∀ v ∈ recorded id.client id.vendor journal, v.nonce ≠ id.nonce) :
    Right journal (.markSpent id) (.error (.violation (.nonceSequence (S.partyText id.client)
      s!"mark_spent of unknown nonce {id.nonce}")))
  | unspent {client vendor} :
    Right journal (.unspent client vendor) (.ok (.vouchers (unspent client vendor journal)))

/-- Whatever is asked fails for an outage, or is answered rightly. -/
inductive Exact : List (StoreEntry S) → Prop
  | nil : Exact []
  | concat {journal r o} (earlier : Exact journal)
    (answer : (∃ e, o = .error e ∧ e.IsOutage) ∨ Right journal r o) : Exact (journal ++ [⟨r, o⟩])

namespace Exact

variable {client vendor : S.Party} {journal : List (StoreEntry S)}

/-- An entry that is answered was answered rightly. -/
theorem right_of_ok {r : StoreRequest S} {o : Except Error (StoreReply S)} {reply : StoreReply S}
    (h : (∃ e, o = .error e ∧ e.IsOutage) ∨ Right journal r o) (ho : o = .ok reply) :
    Right journal r (.ok reply) := by
  subst ho
  obtain ⟨e, he, -⟩ | h := h
  · cases he
  · exact h

/-- Running costs never leave the range of amounts. -/
theorem net_range (h : Exact journal) (which : RunningCost) (client : S.Party) :
    0 ≤ net which client journal ∧ net which client journal ≤ Atoms.top.toNat := by
  have amount (a : Atoms) : (0 : Int) ≤ a.toNat ∧ (a.toNat : Int) ≤ Atoms.top.toNat :=
    ⟨Int.natCast_nonneg _, Int.ofNat_le.2 (Atoms.toNat_le_top a)⟩
  induction h with
  | nil => exact amount 0
  | @concat journal r o earlier answer ih =>
    obtain ⟨e, rfl, -⟩ | right := answer
    · rw [net_idle (StoreEntry.idle_error r e)]
      exact ih
    -- a cost that changes becomes what the store answered, or nothing
    cases right with
    | @add which' client' atoms a total =>
      rw [net_add, ← total]
      split
      · exact amount a
      · exact ih
    | @subtract which' client' atoms a total =>
      rw [net_subtract, ← total]
      split
      · exact amount a
      · exact ih
    | reset =>
      rw [net_reset]
      split
      · exact amount 0
      · exact ih
    | _ =>
      rw [net_same rfl rfl]
      exact ih

/-- Vouchers are recorded for their own client and vendor. -/
theorem own {v : Voucher S} (h : v ∈ recorded client vendor journal) : v.client = client ∧ v.vendor = vendor := by
  obtain ⟨e, -, he⟩ := List.mem_filterMap.1 h
  exact (StoreEntry.recorded?_eq_some he).2

/-- Each voucher has the nonce that follows the one before it. -/
theorem consecutive (h : Exact journal) (client vendor : S.Party) :
    (recorded client vendor journal).IsChain fun v w => w.nonce.toNat = v.nonce.toNat + 1 := by
  induction h with
  | nil => exact .nil
  | @concat journal r o earlier answer ih =>
    rw [recorded_concat]
    cases hv : StoreEntry.recorded? client vendor ⟨r, o⟩ with
    | none => simpa using ih
    | some v =>
      -- the entry says that `v` was taken, which is right behind the newest voucher only
      obtain ⟨he, rfl, rfl⟩ := StoreEntry.recorded?_eq_some hv
      obtain ⟨rfl, rfl⟩ := StoreEntry.mk.inj he
      refine ih.append (.singleton v) ?_
      rintro w hw x hx
      obtain rfl : v = x := by simpa using hx
      cases right_of_ok answer rfl with
      | first none_yet => rw [none_yet] at hw; cases hw
      | next newest follows =>
        obtain rfl := Option.some.inj (newest.symm.trans hw)
        exact follows

/-- Nonces ascend along a chain. -/
theorem ascending (h : Exact journal) (client vendor : S.Party) :
    (recorded client vendor journal).Pairwise fun v w => v.nonce < w.nonce := by
  have : IsTrans (Voucher S) fun v w => v.nonce < w.nonce := ⟨fun _ _ _ => UInt64.lt_trans⟩
  refine List.isChain_iff_pairwise.1 ((h.consecutive client vendor).imp fun v w hvw => ?_)
  rw [UInt64.lt_iff_toNat_lt]
  omega

/-- Only recorded vouchers are marked. -/
theorem marked_recorded (h : Exact journal) {n : UInt64} (hn : n ∈ marked client vendor journal) :
    ∃ v ∈ recorded client vendor journal, v.nonce = n := by
  induction h with
  | nil => cases hn
  | @concat journal r o earlier answer ih =>
    rw [marked_concat, List.mem_append] at hn
    rw [recorded_concat]
    obtain hn | hn := hn
    · obtain ⟨v, hv, hnonce⟩ := ih hn
      exact ⟨v, List.mem_append_left _ hv, hnonce⟩
    · -- a mark set now is right only on a voucher that the journal records before it
      obtain ⟨reply, he⟩ := StoreEntry.marked?_eq_some (Option.mem_toList.1 hn)
      obtain ⟨rfl, rfl⟩ := StoreEntry.mk.inj he
      cases right_of_ok answer rfl with
      | markSpent known same => exact ⟨_, List.mem_append_left _ known, same⟩

/-- No voucher is marked twice. -/
theorem marked_nodup (h : Exact journal) (client vendor : S.Party) : (marked client vendor journal).Nodup := by
  induction h with
  | nil => exact List.nodup_nil
  | @concat journal r o earlier answer ih =>
    rw [marked_concat]
    cases hn : StoreEntry.marked? client vendor ⟨r, o⟩ with
    | none => simpa using ih
    | some n =>
      obtain ⟨reply, he⟩ := StoreEntry.marked?_eq_some hn
      obtain ⟨rfl, rfl⟩ := StoreEntry.mk.inj he
      cases right_of_ok answer rfl with
      | markSpent known same unmarked => exact List.nodup_append_comm.1 (List.nodup_cons.2 ⟨unmarked, ih⟩)

end Exact
end Journal
end VoucherGateway
