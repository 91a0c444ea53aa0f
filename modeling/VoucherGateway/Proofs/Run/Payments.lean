import VoucherGateway.Proofs.Ledger.Calm
import VoucherGateway.Proofs.Run.Attempts

/-!
# Payments — how far a query is paid for

Vouchers are used up on account of charged queries only (`Accounted`), so a query that nobody tried to settle has
used up none.  From there on the flags of the query tell what is unlocked and charged, and what it used up is what
was handed over since (`Payment`).  Main statement: at the end of the way the client's vouchers are spent as far as
unmarked cost and the cost of the query together cover them, and the receipt says so (`Payment.paid`).
-/

namespace VoucherGateway

variable {S : Scheme}

/-- Entries that begin no spend on account of a query. -/
def Entry.Unbilled : Entry S → Prop
  | .begun _ _ query => query = none
  | _ => True

theorem Entry.SpendsFor.unbilled {client : S.Party} {e : Entry S} (h : e.SpendsFor client none) : e.Unbilled := by
  cases e with
  | begun _ _ _ => exact h.2
  | _ => trivial

namespace Ledger

variable {L M N : Ledger S} {e : Entry S} {q x : Query S} {cost : Atoms} {spent : List (Voucher S)}

/-! ## On whose account vouchers are used up -/

/-- Vouchers are used up, or about to be, on account of charged queries only. -/
def Accounted (L : Ledger S) : Prop :=
  ∀ q ∈ L.queries.rows, q.charged = false →
    q.consumed = [] ∧ ∀ c p, L.pending c = some p → p.query ≠ some q.id

/-- Only the spend of a voucher can be on the account of a query, and so it stays if that query is charged. -/
theorem Accounted.post (h : L.Accounted) (hL : L.Sound) (ha : L.Allows e)
    (hbegun : ∀ c v id, e = .begun c v (some id) → ∃ q ∈ L.queries.rows, q.id = id ∧ q.charged = true) :
    (L.post e).Accounted := by
  intro q' hq' hch
  rcases mem_rows_post hq' with ⟨q, hq, -, rfl⟩ | rfl
  · have hb := becomes_onRow hL.numbered ha hq
    have hbefore : q.charged = false := by
      rw [← Bool.not_eq_true]
      exact fun hcharged => absurd (hch.symm.trans (hb.charged hcharged)) nofun
    -- it was not charged before either, so the invariant holds of what it was
    obtain ⟨hconsumed, hpending⟩ := h q hq hbefore
    refine ⟨?_, fun c p hp hserved => ?_⟩
    · rcases hL.consumed_onRow ha hq with hsame | ⟨client, p, rfl, hserved, -⟩
      · exact hsame.trans hconsumed
      · exact absurd hserved (hpending client p ha.1)
    · rw [hb.id] at hserved
      rw [pending_post] at hp
      -- only three entries change what spend is under way
      cases e with
      | begun client v query =>
        dsimp only at hp
        split at hp
        · obtain rfl := Option.some.inj hp
          obtain rfl : query = some q.id := hserved
          obtain ⟨y, hy, hid, hcharged⟩ := hbegun client v q.id rfl
          obtain rfl := hL.same hy hq hid
          cases hbefore.symm.trans hcharged
        · exact hpending c p hp hserved
      | marked client _ =>
        dsimp only at hp
        split at hp
        · obtain ⟨p', hp', rfl⟩ := Option.map_eq_some_iff.1 hp
          exact hpending client p' hp' hserved
        · exact hpending c p hp hserved
      | completed client _ =>
        dsimp only at hp
        split at hp
        · cases hp
        · exact hpending c p hp hserved
      | _ => exact hpending c p hp hserved
  · -- a spend that is under way serves none but numbers given out before
    refine ⟨ha.2.2.2.2.2.1, fun c p hp hserved => ?_⟩
    have hlt := (hL.serves c p q'.id ((pending_post _ c).symm.trans hp) hserved).1
    rw [ha.1] at hlt
    exact Nat.lt_irrefl _ hlt

theorem Accounted.trail {allowed : Entry S → Prop} (h : L.Accounted) (hL : L.Sound) (ht : Trail allowed L M)
    (hnone : ∀ e, allowed e → e.Unbilled) : M.Accounted := by
  induction ht with
  | refl => exact h
  | tail hpath hstep ih =>
    obtain ⟨e, he, ha, rfl⟩ := hstep
    refine ih.post (hL.trail hpath) ha ?_
    rintro c v id rfl
    cases (hnone _ he : some id = none)

theorem Accounted.pricing (h : L.Accounted) (hL : L.Sound) (hq : q ∈ L.queries.rows) (hst : q.state = .locked)
    (cost : Atoms) : (L.pricing q cost).Accounted := by
  unfold Ledger.pricing
  split
  · exact h
  · next hact => exact h.post hL ⟨hq, hst, by simpa using hact⟩ nofun

theorem Accounted.way {id : QueryId} (h : L.Accounted) (hway : Way id L M) : M.Accounted := by
  induction hway with
  | refl => exact h
  | tail hpath hstep ih =>
    obtain ⟨hN, x, hx, hxid, e, he, ha, rfl⟩ := hstep
    refine ih.post hN ha ?_
    rintro c v id' rfl
    cases he with
    | spend charged spends => exact ⟨x, hx, (Option.some.inj spends.2).symm, charged⟩

/-! ## How far a query is paid for -/

/-- What is due of a client once a cost is charged. -/
def due (L : Ledger S) (client : S.Party) (cost : Atoms) : Nat := (L.unmarkedOf client).toNat + cost.toNat

/-- The vouchers that what is due then covers of those that are not spent, oldest first. -/
def payable (L : Ledger S) (client : S.Party) (cost : Atoms) : List (Voucher S) :=
  covered (L.chain client).unspent (L.due client cost)

/-- A query whose settlement is not begun, of a client without a spend under way. -/
structure Untried (L : Ledger S) (q : Query S) : Prop where
  row : q ∈ L.queries.rows
  locked : q.state = .locked
  unpriced : q.actual = none
  held : q.released = false
  idle : L.pending q.client = none

/-- How far the query that became another one is paid for since a ledger, and the vouchers spent for it. -/
structure Payment (L : Ledger S) (q : Query S) (cost : Atoms) (spent : List (Voucher S)) (M : Ledger S)
    (x : Query S) : Prop where
  /-- The query differs from what it was in how far it has got. -/
  row : x ∈ M.queries.rows
  same : x =
    { q with actual := some cost, released := x.released, charged := x.charged, consumed := spent.map (·.id) }
  /-- Its estimate is unlocked once. -/
  locked : (M.lockedOf q.client).toNat + (if x.released then q.estimated.toNat else 0) =
    (L.lockedOf q.client).toNat
  /-- Its cost is charged once, and fits. -/
  books : M.books q.client = L.books q.client + if x.charged then cost.toNat else 0
  fits : x.charged = true → L.due q.client cost ≤ Atoms.top.toNat
  /-- Nothing is spent before. -/
  unspent : x.charged = false → spent = [] ∧ M.pending q.client = none
  /-- What is spent is queued behind what was there, in the order of spending. -/
  vouchers : (M.chain q.client).vouchers = (L.chain q.client).vouchers
  queue : M.settlement.of q.client =
    { L.settlement.of q.client with unsettled := (L.settlement.of q.client).unsettled ++ spent }
  serving : ∀ p, M.pending q.client = some p → p.query = some q.id

namespace Payment

theorem id_eq (h : L.Payment q cost spent M x) : x.id = q.id := by rw [h.same]

theorem client_eq (h : L.Payment q cost spent M x) : x.client = q.client := by rw [h.same]

theorem handed (h : L.Payment q cost spent M x) : M.handed q.client = L.handed q.client ++ spent := by
  unfold Ledger.handed
  rw [h.queue]
  exact (List.append_assoc ..).symm

/-- What was due before is unmarked, as far as vouchers do not cover it. -/
theorem balance (h : L.Payment q cost spent M x) :
    (M.unmarkedOf q.client).toNat + (spent.map (·.atoms.toNat)).sum =
      (L.unmarkedOf q.client).toNat + if x.charged then cost.toNat else 0 := by
  have hbooks := h.books
  unfold Ledger.books at hbooks
  rw [h.handed, List.map_append, List.sum_append] at hbooks
  omega

/-- Before the charge the unmarked cost is what it was. -/
theorem unmarked (h : L.Payment q cost spent M x) (hch : x.charged = false) :
    M.unmarkedOf q.client = L.unmarkedOf q.client := by
  have hbalance := h.balance
  rw [(h.unspent hch).1, hch] at hbalance
  exact UInt64.toNat_inj.1 hbalance

/-- A query whose settlement is not begun, once its cost is fixed. -/
theorem start (h : L.Untried q) (hL : L.Sound) (haccounted : L.Accounted) (cost : Atoms) :
    L.Payment q cost [] (L.pricing q cost) { q with actual := some cost } := by
  obtain ⟨hq, -, hact, hrel, hp⟩ := h
  have hch : q.charged = false := by
    rw [← Bool.not_eq_true]
    intro hch
    have hsome := (hL.rows q hq).charged_priced hch
    rw [hact] at hsome
    cases hsome
  have hprice : L.pricing q cost = L.post (.priced q cost) := by
    unfold pricing
    rw [hact]
    rfl
  rw [hprice]
  exact {
    row := QueryTable.mem_update hq fun x => { x with actual := some cost }
    same := by rw [List.map_nil, ← (haccounted q hq hch).1]
    locked := by rw [if_neg (by simp [hrel])]; rfl
    books := by rw [if_neg (by simp [hch])]; rfl
    fits := fun h => absurd (hch.symm.trans h) nofun
    unspent := fun _ => ⟨rfl, hp⟩
    vouchers := rfl
    queue := by rw [List.append_nil]; rfl
    serving := fun p h => absurd (hp.symm.trans h) nofun }

/-- The estimate is unlocked. -/
theorem release (h : L.Payment q cost spent M x) (hM : M.Sound) (ha : M.Allows (.released x)) :
    L.Payment q cost spent (M.post (.released x)) { x with released := true } := by
  obtain ⟨hx, hst, hrel⟩ := ha
  have hclient := h.client_eq
  have hestimated : x.estimated = q.estimated := by rw [h.same]
  -- the estimate is part of what is locked, so taking it off does not wrap around
  have hheld := hM.held_le hx hst hrel
  have hlocked := h.locked
  rw [hclient] at hheld
  rw [if_neg (by simp [hrel])] at hlocked
  exact {
    row := QueryTable.mem_update hx fun x => { x with released := true }
    same := by rw [h.same]
    locked := by
      rw [lockedOf_post, if_pos rfl]
      simp only [hclient, if_true]
      rw [Atoms.toNat_sub_of_le hheld, hestimated]
      have hle := UInt64.le_iff_toNat_le.1 hheld
      rw [hestimated] at hle
      omega
    books := h.books
    fits := h.fits
    unspent := h.unspent
    vouchers := h.vouchers
    queue := h.queue
    serving := h.serving }

/-- The cost is charged. -/
theorem charge (h : L.Payment q cost spent M x) (hM : M.Sound) {cost' : Atoms}
    (ha : M.Allows (.charged x cost')) :
    L.Payment q cost spent (M.post (.charged x cost')) { x with charged := true } := by
  have hbooks := hM.books_post ha (c := q.client)
  obtain ⟨hx, -, -, hch, hact, hfits⟩ := ha
  obtain rfl : cost = cost' := by
    rw [h.same] at hact
    exact Option.some.inj hact
  have hclient := h.client_eq
  rw [h.books, if_neg (by simp [hch])] at hbooks
  exact {
    row := QueryTable.mem_update hx fun x => { x with charged := true }
    same := by rw [h.same]
    locked := h.locked
    books := by
      rw [hbooks, if_pos rfl]
      simp [Entry.charges, hclient]
    fits := fun _ => by rw [due, ← h.unmarked hch, ← hclient]; exact hfits
    unspent := nofun
    vouchers := h.vouchers
    queue := h.queue
    serving := h.serving }

/-- A voucher is spent, step by step. -/
theorem spend (h : L.Payment q cost spent M x) (hM : M.Sound) (hch : x.charged = true)
    (he : e.SpendsFor x.client (some x.id)) (ha : M.Allows e) :
    ∃ spent x', x'.charged = true ∧ L.Payment q cost spent (M.post e) x' := by
  have hclient := h.client_eq
  have hid := h.id_eq
  -- a spend is begun, then its voucher is marked; the voucher counts as spent once its atoms are taken off
  rcases he.cases with ⟨v, rfl⟩ | ⟨p, rfl⟩ | ⟨p, rfl⟩
  · refine ⟨spent, x, hch, { h with
      unspent := fun hnot => absurd (hch.symm.trans hnot) nofun
      serving := ?_ }⟩
    intro p hp
    rw [pending_post] at hp
    simp only [hclient, if_true] at hp
    obtain rfl := Option.some.inj hp
    exact congrArg some hid
  · refine ⟨spent, x, hch, { h with
      books := by rw [hM.books_post ha]; exact h.books
      unspent := fun hnot => absurd (hch.symm.trans hnot) nofun
      vouchers := ?_
      serving := ?_ }⟩
    · rw [hM.chain_post ha]
      simp only [hclient, if_true]
      exact h.vouchers
    · intro p' hp'
      rw [pending_post] at hp'
      simp only [hclient, if_true] at hp'
      obtain ⟨p₀, hp₀, rfl⟩ := Option.map_eq_some_iff.1 hp'
      exact h.serving p₀ hp₀
  · have hserved : p.query = some x.id := hid.symm ▸ h.serving p (hclient ▸ ha.1)
    have hrow : Entry.onRow (.completed x.client p) x = { x with consumed := x.consumed ++ [p.voucher.id] } :=
      if_pos hserved
    refine ⟨spent ++ [p.voucher], { x with consumed := x.consumed ++ [p.voucher.id] }, hch, ?_⟩
    exact {
      row := hrow ▸ mem_rows_of_keeps rfl h.row
      same := by rw [h.same, List.map_append]; rfl
      locked := h.locked
      books := by rw [hM.books_post ha]; exact h.books
      fits := h.fits
      unspent := fun hnot => absurd (hch.symm.trans hnot) nofun
      vouchers := by rw [hM.chain_post ha]; exact h.vouchers
      queue := by
        rw [hM.queue_post ha]
        simp only [hclient, if_true, h.queue, List.append_assoc]
      serving := by
        intro p' hp'
        rw [pending_post] at hp'
        simp only [hclient, if_true] at hp'
        cases hp' }

/-- A step on the way carries the payment on. -/
theorem nears (h : L.Payment q cost spent M x) (hstep : Nears q.id M N) :
    ∃ spent x', L.Payment q cost spent N x' := by
  obtain ⟨hM, y, hy, hid, e, he, ha, rfl⟩ := hstep
  obtain rfl := hM.same hy h.row (hid.trans h.id_eq.symm)
  cases he with
  | release => exact ⟨_, _, h.release hM ha⟩
  | charge _ => exact ⟨_, _, h.charge hM ha⟩
  | spend charged spends =>
    obtain ⟨spent', x', -, h'⟩ := h.spend hM charged spends ha
    exact ⟨spent', x', h'⟩

theorem way (h : L.Payment q cost spent M x) (hway : Way q.id M N) : ∃ spent x', L.Payment q cost spent N x' := by
  induction hway with
  | refl => exact ⟨spent, x, h⟩
  | tail _ hstep ih =>
    obtain ⟨_, _, h'⟩ := ih
    exact h'.nears hstep

/-- At the end of the way the vouchers spent are all that is covered of those that were not spent. -/
theorem spent_eq (h : L.Payment q cost spent M x) (hL : L.Sound) (hM : M.Sound) (hp : L.pending q.client = none)
    (harrived : M.Arrived x cost) :
    (L.chain q.client).unspent = spent ++ (M.chain q.client).unspent ∧
      coveredCount (L.chain q.client).unspent (L.due q.client cost) = spent.length ∧
      spent = L.payable q.client cost := by
  obtain ⟨-, -, -, hch, -, hdone, habsorbed⟩ := harrived
  rw [h.client_eq] at hdone habsorbed
  -- vouchers are handed over from the front, and what is spent now follows what was handed over before
  obtain ⟨rest, hrest⟩ := hM.handed q.client
  have hvouchers : (M.chain q.client).vouchers = L.handed q.client ++ (spent ++ rest) := by
    rw [← hrest, hdone, h.handed]
    simp
  have hbefore : (L.chain q.client).unspent = spent ++ rest :=
    hL.unspent_eq (by rw [unreduced_eq_none hp, ← h.vouchers, hvouchers]; simp)
  have hafter : (M.chain q.client).unspent = rest :=
    hM.unspent_eq (by rw [unreduced_eq_none hdone, hvouchers, h.handed]; simp)
  have hbalance := h.balance
  rw [if_pos hch] at hbalance
  have hcount : coveredCount (L.chain q.client).unspent (L.due q.client cost) = spent.length := by
    rw [hbefore]
    refine coveredCount_append (by unfold Ledger.due; omega) fun v hv => ?_
    -- the oldest voucher that is left is worth more than what is left unmarked
    have hlt := UInt64.lt_iff_toNat_lt.1 (habsorbed v (hafter ▸ hv))
    unfold Ledger.due
    omega
  refine ⟨by rw [hbefore, hafter], hcount, ?_⟩
  unfold payable covered
  rw [hcount, hbefore, List.take_left]

end Payment

/-! ## The end of the way -/

/-- A query is paid for from one ledger to another at a cost, and a receipt tells how. -/
structure Paid (L : Ledger S) (q : Query S) (cost : Atoms) (receipt : Receipt S) (M : Ledger S) : Prop where
  /-- The receipt is about the query, and tells its cost. -/
  subject : receipt.query = q.id ∧ receipt.session = q.session ∧ receipt.estimated = q.estimated
  actual : receipt.actual = cost
  /-- The vouchers consumed are those that what is due covers, from the oldest on. -/
  consumed : receipt.consumed = (L.payable q.client cost).map (·.id)
  /-- The estimate is unlocked. -/
  locked : (M.lockedOf q.client).toNat + q.estimated.toNat = (L.lockedOf q.client).toNat
  /-- What the vouchers do not cover of what is due is unmarked. -/
  unmarked : (M.unmarkedOf q.client).toNat + ((L.payable q.client cost).map (·.atoms.toNat)).sum =
    L.due q.client cost
  /-- These vouchers are marked spent, and no others. -/
  vouchers : (M.chain q.client).vouchers = (L.chain q.client).vouchers
  marked : (M.chain q.client).spent = (L.chain q.client).spent ++ (L.payable q.client cost).map (·.nonce)
  /-- They wait for settlement behind those that were waiting. -/
  queue : M.settlement.of q.client =
    { L.settlement.of q.client with
      unsettled := (L.settlement.of q.client).unsettled ++ L.payable q.client cost }
  /-- The voucher behind them is used in part if there is one, and if anything is unmarked. -/
  partlyUsed : receipt.partlyUsed =
    if 0 < M.unmarkedOf q.client then
      (L.chain q.client).unspent[coveredCount (L.chain q.client).unspent (L.due q.client cost)]?.map (·.id)
    else none
  /-- The credit that the receipt tells is the credit then. -/
  creditAfter : receipt.creditAfter = M.credit q.client
  /-- The query is settled with that receipt. -/
  recorded : ∃ x ∈ M.queries.rows, x.id = q.id ∧ x.state = .settled ∧ x.receipt = some receipt

/-- A query at the end of the way is paid for once its receipt is written. -/
theorem Payment.paid (h : L.Payment q cost spent M x) (hL : L.Sound) (hM : M.Sound)
    (hp : L.pending q.client = none) (harrived : M.Arrived x cost) (time : Nat) :
    L.Paid q cost (M.receipt x cost) (M.post (.settled x (M.receipt x cost) time)) := by
  obtain ⟨hunspent, hcount, hspent⟩ := h.spent_eq hL hM hp harrived
  have hclient := h.client_eq
  have hdone : M.pending q.client = none := hclient ▸ harrived.done
  have hmarks : (M.chain q.client).spent = (L.chain q.client).spent ++ spent.map (·.nonce) := by
    rw [hM.spent, hL.spent, unreduced_eq_none hdone, unreduced_eq_none hp, h.handed]
    simp
  have hlocked := h.locked
  have hbalance := h.balance
  rw [if_pos harrived.released] at hlocked
  rw [if_pos harrived.charged] at hbalance
  -- the voucher behind those that are covered is the oldest one that is left
  have hnext : (M.chain q.client).unspent.head? = (L.chain q.client).unspent[spent.length]? := by
    rw [hunspent, List.getElem?_append_right (Nat.le_refl _), Nat.sub_self, List.head?_eq_getElem?]
  exact {
    subject := by rw [h.same]; exact ⟨rfl, rfl, rfl⟩
    actual := rfl
    consumed := by rw [← hspent, h.same]; rfl
    locked := hlocked
    unmarked := hspent ▸ hbalance
    vouchers := h.vouchers
    marked := hspent ▸ hmarks
    queue := hspent ▸ h.queue
    partlyUsed := by rw [hcount, ← hnext, ← hclient]; rfl
    creditAfter := by rw [← hclient]; rfl
    recorded := ⟨_, QueryTable.mem_update h.row _, h.id_eq, rfl, rfl⟩ }

/-- Where the cost of a query does not fit nothing is charged or spent. -/
structure Overrun (L : Ledger S) (q : Query S) (M : Ledger S) : Prop where
  /-- The costs, the vouchers and the queue are what they were. -/
  unmarked : M.unmarked = L.unmarked
  chains : M.chains = L.chains
  settlement : M.settlement = L.settlement
  /-- The query stays locked. -/
  row : ∃ x ∈ M.queries.rows, x.id = q.id ∧ x.state = .locked ∧ x.charged = false ∧ x.consumed = []

/-- A query whose settlement was not begun is paid for once it is settled, and its cost fits. -/
theorem Untried.paid {receipt : Receipt S} (h : L.Untried q) (hL : L.Sound) (haccounted : L.Accounted)
    (hsettled : (L.pricing q cost).Settled q.id cost receipt N) :
    L.due q.client cost ≤ Atoms.top.toNat ∧ L.Paid q cost receipt N := by
  obtain ⟨M, x, time, way, hid, harrived, rfl, rfl⟩ := hsettled
  obtain ⟨spent, y, hpayment⟩ := (Payment.start h hL haccounted cost).way way
  have hM := way.sound (hL.pricing h.row h.locked cost)
  obtain rfl := hM.same harrived.row hpayment.row (hid.trans hpayment.id_eq.symm)
  exact ⟨hpayment.fits harrived.charged, hpayment.paid hL hM h.idle harrived time⟩

/-- If the settlement of such a query gets stuck its cost does not fit on top of the unmarked cost. -/
theorem Untried.overrun (h : L.Untried q) (hL : L.Sound) (haccounted : L.Accounted)
    (way : Way q.id (L.pricing q cost) M) (hid : x.id = q.id) (hstuck : M.Stuck x cost)
    (reason : String) :
    Atoms.top.toNat < L.due q.client cost ∧ x.client = q.client ∧
      M.unmarkedOf q.client = L.unmarkedOf q.client ∧ L.Overrun q (M.post (.halted x.client reason)) := by
  obtain ⟨spent, y, hpayment⟩ := (Payment.start h hL haccounted cost).way way
  have hM := way.sound (hL.pricing h.row h.locked cost)
  obtain rfl := hM.same hstuck.row hpayment.row (hid.trans hpayment.id_eq.symm)
  have hunmarked := hpayment.unmarked hstuck.uncharged
  have hexceeds := hstuck.exceeds
  rw [hpayment.client_eq, hunmarked] at hexceeds
  obtain ⟨locked, queries, hrest⟩ :=
    (way.of_uncharged hpayment.row hid hstuck.uncharged).rest_of_released
  obtain ⟨priced, hprice⟩ : ∃ priced, L.pricing q cost = { L with queries := priced } := by
    unfold pricing
    split <;> exact ⟨_, rfl⟩
  have hsame : M = { L with locked := locked, queries := queries } := by rw [hrest, hprice]
  refine ⟨hexceeds, hpayment.client_eq, hunmarked, ?_⟩
  exact {
    unmarked := by rw [hsame]; rfl
    chains := by rw [hsame]; rfl
    settlement := by rw [hsame]; rfl
    row := by
      refine ⟨x, hpayment.row, hid, ?_, hstuck.uncharged, ?_⟩
      · rw [hpayment.same]
        exact h.locked
      · rw [hpayment.same, (hpayment.unspent hstuck.uncharged).1]
        rfl }

end Ledger
end VoucherGateway
