import VoucherGateway.Proofs.Stores.Journal

/-!
# Service — what becomes of one request

The voucher store and the two stores of running costs, on their own, are asked something.  The request is refused
if its store is out of service.  Otherwise it is served, and numbers are compared as they are: where words are added
on the way, the sum is one that fits (`VoucherChain.insert_of_some`).

Main statement: if the stores hold what a journal says, a request ends rightly, and the stores then hold what the
journal says with its outcome written behind (`meets_ask`).
-/

namespace VoucherGateway

variable {S : Scheme} {α : Type}

/-! ## Calls that are refused -/

/-- Whether a call of a kind fails now. -/
def Outage.refuses {κ : Type} [DecidableEq κ] (o : Outage κ) (kind : κ) : Bool :=
  !o.available || (o.plans.get? kind).any (·.failsNow)

theorem Outage.ends_refused {κ : Type} [DecidableEq κ] (store : String) (name : κ → String) (kind : κ)
    (o : Outage κ) :
    Ends (fun _ _ => o.refuses kind = false) (fun _ _ => o.refuses kind = true) ((check store name kind).run o) := by
  unfold Action.run check refuses
  cases o.available with
  | false => exact rfl
  | true =>
    cases o.plans.get? kind with
    | none => exact rfl
    | some p => cases hfails : p.failsNow <;> simp [Ends, hfails]

/-- A call to a cost store is refused, or goes on as if nobody had looked for an outage. -/
theorem CostStore.ends_call {book : CostBook} {kind : CostCall} {rest : CostStore.Act S α} {s : CostStore S}
    {ok : α → CostStore S → Prop} {bad : Error → CostStore S → Prop}
    (refused : s.outage.refuses kind = true → ∀ e s', e.IsOutage → s'.costs = s.costs → bad e s')
    (served : s.outage.refuses kind = false → ∀ s', s'.costs = s.costs → Ends ok bad (rest.run s')) :
    Ends ok bad ((do check book kind; rest).run s) := by
  have hrefused : Ends (fun _ _ => s.outage.refuses kind = false) (fun _ _ => s.outage.refuses kind = true)
      ((check book kind).run s) := Action.ends_within.2 (Outage.ends_refused _ _ kind s.outage)
  refine Action.ends_bind (((ends_check book s kind).and hrefused).mono_error ?_) ?_
  · rintro e s' ⟨⟨hsame, houtage⟩, hout⟩
    exact refused hout e s' houtage hsame
  · rintro _ s' ⟨hsame, hup⟩
    exact served hup s' hsame

theorem VoucherStore.chain_congr {s s' : VoucherStore S} (h : s'.chains = s.chains) {client vendor : S.Party} :
    s'.chain client vendor = s.chain client vendor := by
  simp [chain, h]

/-- And so is a call to the voucher store. -/
theorem VoucherStore.ends_call {kind : VoucherCall} {rest : VoucherStore.Act S α} {s : VoucherStore S}
    {ok : α → VoucherStore S → Prop} {bad : Error → VoucherStore S → Prop}
    (refused : s.outage.refuses kind = true → ∀ e s', e.IsOutage → s'.chains = s.chains →
      s'.misreported = s.misreported → bad e s')
    (served : s.outage.refuses kind = false → ∀ s', s'.chains = s.chains → s'.misreported = s.misreported →
      Ends ok bad (rest.run s')) :
    Ends ok bad ((do check kind; rest).run s) := by
  have hrefused : Ends (fun _ _ => s.outage.refuses kind = false) (fun _ _ => s.outage.refuses kind = true)
      ((check kind).run s) := Action.ends_within.2 (Outage.ends_refused _ _ kind s.outage)
  refine Action.ends_bind (((ends_check kind s).and hrefused).mono_error ?_) ?_
  · rintro e s' ⟨⟨⟨hchains, hreports⟩, houtage⟩, hout⟩
    exact refused hout e s' houtage hchains hreports
  · rintro _ s' ⟨⟨hchains, hreports⟩, hup⟩
    exact served hup s' hchains hreports

/-! ## Chains -/

namespace VoucherChain

/-- Below some word there is room for one more. -/
theorem toNat_succ_of_not_le {latest nonce : UInt64} (h : ¬ nonce ≤ latest) :
    (latest + 1).toNat = latest.toNat + 1 := by
  have hlt : latest.toNat < nonce.toNat := by simpa [UInt64.le_iff_toNat_le] using h
  exact Atoms.toNat_add_of_fits (b := 1) (Nat.lt_of_lt_of_le hlt (Atoms.toNat_le_top nonce))

theorem eq_of_parts {c d : VoucherChain S} (hvouchers : c.vouchers = d.vouchers) (hspent : c.spent = d.spent) :
    c = d := by
  cases c
  cases d
  cases hvouchers
  cases hspent
  rfl

/-- The chain with a voucher at its end. -/
def append (c : VoucherChain S) (v : Voucher S) : VoucherChain S := { c with vouchers := c.vouchers ++ [v] }

theorem insert_of_none {c : VoucherChain S} (h : c.latest? = none) (v : Voucher S) :
    c.insert v = .ok (true, c.append v) := by
  unfold insert
  rw [h]
  rfl

/-- Recording a voucher compares its nonce with the newest one as numbers: the sum of words never runs over. -/
theorem insert_of_some {c : VoucherChain S} {latest : UInt64} (h : c.latest? = some latest) (v : Voucher S) :
    c.insert v =
      if v.nonce.toNat ≤ latest.toNat then .ok (false, c)
      else if v.nonce.toNat = latest.toNat + 1 then .ok (true, c.append v)
      else .error (.violation (.nonceSequence (S.partyText v.client)
        s!"insert of nonce {v.nonce} after latest {latest}")) := by
  unfold insert
  rw [h]
  dsimp only
  by_cases hold : v.nonce ≤ latest
  · rw [if_pos hold, if_pos (UInt64.le_iff_toNat_le.1 hold)]
  · rw [if_neg hold, if_neg (mt UInt64.le_iff_toNat_le.2 hold), ite_not]
    simp only [← UInt64.toNat_inj, toNat_succ_of_not_le hold]
    rfl

/-- Recording a voucher with a sum that is absent where `latest + 1` would run over. -/
def insertChecked (c : VoucherChain S) (v : Voucher S) : Option (Except Error (Bool × VoucherChain S)) :=
  match c.latest? with
  | none => some (.ok (true, c.append v))
  | some latest =>
    if v.nonce ≤ latest then some (.ok (false, c))
    else
      (Atoms.add? latest 1).map fun next =>
        if v.nonce ≠ next then
          .error (.violation (.nonceSequence (S.partyText v.client)
            s!"insert of nonce {v.nonce} after latest {latest}"))
        else .ok (true, c.append v)

/-- The sum is never absent. -/
theorem insertChecked_eq (c : VoucherChain S) (v : Voucher S) : c.insertChecked v = some (c.insert v) := by
  unfold insertChecked insert
  cases c.latest? with
  | none => rfl
  | some latest =>
    dsimp only
    split
    · rfl
    · next hnew =>
      have hsum : Atoms.add? latest 1 = some (latest + 1) :=
        Atoms.add?_eq_some_iff.2 (toNat_succ_of_not_le hnew).symm
      rw [hsum, Option.map_some]
      rfl

end VoucherChain

/-! ## The stores -/

/-- The three stores that a gateway works with, on their own. -/
structure Stores (S : Scheme) where
  vouchers : VoucherStore S := {}
  unmarked : CostStore S := {}
  balances : CostStore S := {}

namespace Stores

/-- The store of a running cost. -/
def costs (s : Stores S) : RunningCost → CostStore S
  | .unmarked => s.unmarked
  | .locked => s.balances

/-- Replaces the store of a running cost. -/
def setCosts (s : Stores S) (which : RunningCost) (c : CostStore S) : Stores S :=
  match which with
  | .unmarked => { s with unmarked := c }
  | .locked => { s with balances := c }

/-- A step on the store of a running cost. -/
def onCosts (which : RunningCost) (act : CostBook → CostStore.Act S α) : Action (Stores S) Error α :=
  Action.within (·.costs which) (fun c s => s.setCosts which c) (act which.book)

/-- A step on the voucher store. -/
def onVouchers (act : VoucherStore.Act S α) : Action (Stores S) Error α :=
  Action.within (·.vouchers) (fun v s => { s with vouchers := v }) act

end Stores

/-- What is done on a request. -/
def StoreRequest.act : StoreRequest S → Action (Stores S) Error (StoreReply S)
  | .read which client => .atoms <$> Stores.onCosts which fun book => CostStore.read book client
  | .add which client atoms => .atoms <$> Stores.onCosts which fun book => CostStore.add book client atoms
  | .subtract which client atoms => .atoms <$> Stores.onCosts which fun book => CostStore.subtract book client atoms
  | .reset client => (fun _ => .done) <$> Stores.onCosts .unmarked fun book => CostStore.reset book client
  | .latestNonce client vendor => .nonce <$> Stores.onVouchers (VoucherStore.latestNonce client vendor)
  | .insert v => .flag <$> Stores.onVouchers (VoucherStore.insert v)
  | .isSpent id => .flag <$> Stores.onVouchers (VoucherStore.isSpent id)
  | .markSpent id => (fun _ => .done) <$> Stores.onVouchers (VoucherStore.markSpent id)
  | .unspent client vendor => .vouchers <$> Stores.onVouchers (VoucherStore.unspent client vendor)

namespace Stores

/-- The outcome of a request, and the stores after it. -/
def ask (s : Stores S) (r : StoreRequest S) : Except Error (StoreReply S) × Stores S := r.act.run s

/-- Whether a request fails now because its store is out of service. -/
def refuses (s : Stores S) : StoreRequest S → Bool
  | .read which _ => (s.costs which).outage.refuses .read
  | .add which _ _ => (s.costs which).outage.refuses .add
  | .subtract which _ _ => (s.costs which).outage.refuses .subtract
  | .reset _ => s.unmarked.outage.refuses .reset
  | .latestNonce _ _ => s.vouchers.outage.refuses .latestNonce
  | .insert _ => s.vouchers.outage.refuses .insert
  | .isSpent _ => s.vouchers.outage.refuses .isSpent
  | .markSpent _ => s.vouchers.outage.refuses .markSpent
  | .unspent _ _ => s.vouchers.outage.refuses .unspent

/-! ## What stores hold -/

/-- The same costs, vouchers and marks. -/
structure Alike (s t : Stores S) : Prop where
  costs : ∀ which client, (t.costs which).cost client = (s.costs which).cost client
  chains : ∀ client vendor, t.vouchers.chain client vendor = s.vouchers.chain client vendor
  misreported : t.vouchers.misreported = s.vouchers.misreported

/-- The stores hold what a journal says. -/
structure Holds (journal : List (StoreEntry S)) (s : Stores S) : Prop where
  /-- A running cost is what was added less what was taken away, as a sum of numbers. -/
  costs : ∀ which client, ((s.costs which).cost client).toNat = Journal.net which client journal
  vouchers : ∀ client vendor, (s.vouchers.chain client vendor).vouchers = Journal.recorded client vendor journal
  spent : ∀ client vendor, (s.vouchers.chain client vendor).spent = Journal.marked client vendor journal
  honest : s.vouchers.misreported = none

/-- What may become of a request after a journal. -/
inductive Answers (journal : List (StoreEntry S)) (s : Stores S) (r : StoreRequest S) :
    Except Error (StoreReply S) → Prop
  | refused {e : Error} (out : s.refuses r = true) (outage : e.IsOutage) : Answers journal s r (.error e)
  | served {o : Except Error (StoreReply S)} (up : s.refuses r = false) (right : Journal.Right journal r o) :
    Answers journal s r o

/-- A request ends as it may, and the stores then hold what is written of it. -/
def Meets (journal : List (StoreEntry S)) (s : Stores S) (r : StoreRequest S) : Prop :=
  Answers journal s r (s.ask r).1 ∧ Holds (journal ++ [⟨r, (s.ask r).1⟩]) (s.ask r).2

variable {journal : List (StoreEntry S)} {s t : Stores S} {which : RunningCost} {client vendor : S.Party}

theorem costs_setCosts (s : Stores S) (which : RunningCost) (c : CostStore S) (which' : RunningCost) :
    (s.setCosts which c).costs which' = if which = which' then c else s.costs which' := by
  cases which <;> cases which' <;> rfl

theorem vouchers_setCosts (s : Stores S) (which : RunningCost) (c : CostStore S) :
    (s.setCosts which c).vouchers = s.vouchers := by
  cases which <;> rfl

theorem alike_setCosts {c : CostStore S} (h : c.costs = (s.costs which).costs) : s.Alike (s.setCosts which c) where
  costs which' client := by
    rw [costs_setCosts]
    split
    · next hsame => exact hsame ▸ CostStore.cost_congr client h
    · rfl
  chains client vendor := by rw [vouchers_setCosts]
  misreported := by rw [vouchers_setCosts]

theorem alike_setVouchers {v : VoucherStore S} (hchains : v.chains = s.vouchers.chains)
    (hreports : v.misreported = s.vouchers.misreported) : s.Alike { s with vouchers := v } where
  costs _ _ := rfl
  chains _ _ := VoucherStore.chain_congr hchains
  misreported := hreports

namespace Holds

theorem chain_latest (h : s.Holds journal) (client vendor : S.Party) :
    (s.vouchers.chain client vendor).latest? = (Journal.recorded client vendor journal).getLast?.map (·.nonce) := by
  unfold VoucherChain.latest?
  rw [h.vouchers]

theorem alike (h : Holds journal s) (hst : s.Alike t) : Holds journal t where
  costs which client := by rw [hst.costs, h.costs]
  vouchers client vendor := by rw [hst.chains, h.vouchers]
  spent client vendor := by rw [hst.chains, h.spent]
  honest := hst.misreported.trans h.honest

/-- What says nothing changes nothing. -/
theorem idle (h : Holds journal s) {e : StoreEntry S} (he : e.Idle) : Holds (journal ++ [e]) s where
  costs which client := by rw [Journal.net_idle he, h.costs]
  vouchers client vendor := by rw [Journal.recorded_idle he, h.vouchers]
  spent client vendor := by rw [Journal.marked_idle he, h.spent]
  honest := h.honest

/-- A running cost of one client was changed. -/
theorem setCosts (h : Holds journal s) {c : CostStore S} {e : StoreEntry S} (client : S.Party) (a : Atoms)
    (hcost : ∀ client', c.cost client' = if client' = client then a else (s.costs which).cost client')
    (hnet : ∀ which' client', Journal.net which' client' (journal ++ [e]) =
      if which = which' ∧ client = client' then (a.toNat : Int) else Journal.net which' client' journal)
    (hrecorded : ∀ client vendor, e.recorded? client vendor = none)
    (hmarked : ∀ client vendor, e.marked? client vendor = none) :
    Holds (journal ++ [e]) (s.setCosts which c) where
  costs which' client' := by
    rw [hnet, costs_setCosts]
    -- the other store is untouched, and so is every other client of the same store
    by_cases hwhich : which = which'
    · subst hwhich
      rw [if_pos rfl, hcost]
      by_cases hclient : client' = client
      · rw [if_pos hclient, if_pos ⟨rfl, hclient.symm⟩]
      · rw [if_neg hclient, if_neg fun hboth => hclient hboth.2.symm, h.costs]
    · rw [if_neg hwhich, if_neg fun hboth => hwhich hboth.1, h.costs]
  vouchers client vendor := by
    rw [vouchers_setCosts, h.vouchers, Journal.recorded_concat, hrecorded]
    exact (List.append_nil _).symm
  spent client vendor := by
    rw [vouchers_setCosts, h.spent, Journal.marked_concat, hmarked]
    exact (List.append_nil _).symm
  honest := by rw [vouchers_setCosts, h.honest]

/-- The chain of one client for one vendor was changed. -/
theorem setChain (h : Holds journal s) {v : VoucherStore S} {c : VoucherChain S} {e : StoreEntry S}
    (hchains : v.chains = s.vouchers.chains) (hreports : v.misreported = s.vouchers.misreported)
    (hnet : ∀ which client, Journal.net which client (journal ++ [e]) = Journal.net which client journal)
    (hvouchers : c.vouchers =
      (s.vouchers.chain client vendor).vouchers ++ (e.recorded? client vendor).toList)
    (hspent : c.spent = (s.vouchers.chain client vendor).spent ++ (e.marked? client vendor).toList)
    (hothers : ∀ client' vendor', (client', vendor') ≠ (client, vendor) →
      e.recorded? client' vendor' = none ∧ e.marked? client' vendor' = none) :
    Holds (journal ++ [e]) { s with vouchers := v.setChain client vendor c } where
  costs which client := (h.costs which client).trans (hnet which client).symm
  vouchers client' vendor' := by
    rw [VoucherStore.chain_setChain, VoucherStore.chain_congr hchains, Journal.recorded_concat, ← h.vouchers]
    split
    · next hsame =>
      obtain ⟨rfl, rfl⟩ := Prod.mk.inj hsame
      exact hvouchers
    · next hother => rw [(hothers client' vendor' hother).1, Option.toList_none, List.append_nil]
  spent client' vendor' := by
    rw [VoucherStore.chain_setChain, VoucherStore.chain_congr hchains, Journal.marked_concat, ← h.spent]
    split
    · next hsame =>
      obtain ⟨rfl, rfl⟩ := Prod.mk.inj hsame
      exact hspent
    · next hother => rw [(hothers client' vendor' hother).2, Option.toList_none, List.append_nil]
  honest := hreports.trans h.honest

end Holds

/-! ## One request -/

section Requests

variable {r : StoreRequest S} {reply : α → StoreReply S}

/-- A request about a running cost. -/
theorem meets_costs {kind : CostCall} {rest : CostBook → CostStore.Act S α} (which : RunningCost)
    (h : Holds journal s)
    (hact : r.act = reply <$> onCosts which fun book => do CostStore.check book kind; rest book)
    (hrefuses : s.refuses r = (s.costs which).outage.refuses kind)
    (served : ∀ c, c.costs = (s.costs which).costs →
      Ends
        (fun a c' => Journal.Right journal r (.ok (reply a)) ∧
          Holds (journal ++ [⟨r, .ok (reply a)⟩]) (s.setCosts which c'))
        (fun e c' => Journal.Right journal r (.error e) ∧ c'.costs = (s.costs which).costs)
        ((rest which.book).run c)) :
    Meets journal s r := by
  have fails {e c} (hc : c.costs = (s.costs which).costs) :
      Holds (journal ++ [⟨r, .error e⟩]) (s.setCosts which c) :=
    (h.idle (StoreEntry.idle_error r e)).alike (alike_setCosts hc)
  refine Ends.split (P := fun o t => Answers journal s r o ∧ Holds (journal ++ [⟨r, o⟩]) t) ?_
  unfold ask
  rw [hact]
  refine Action.ends_map (Action.ends_within.2 (CostStore.ends_call ?_ ?_))
  · intro hout e c houtage hc
    exact ⟨.refused (hrefuses.trans hout) houtage, fails hc⟩
  · intro hup c hc
    have hup := hrefuses.trans hup
    exact (served c hc).mono (fun a c' hok => ⟨.served hup hok.1, hok.2⟩)
      fun e c' hbad => ⟨.served hup hbad.1, fails hbad.2⟩

/-- A request about vouchers. -/
theorem meets_vouchers {kind : VoucherCall} {rest : VoucherStore.Act S α} (h : Holds journal s)
    (hact : r.act = reply <$> onVouchers (do VoucherStore.check kind; rest))
    (hrefuses : s.refuses r = s.vouchers.outage.refuses kind)
    (served : ∀ v : VoucherStore S, v.chains = s.vouchers.chains → v.misreported = s.vouchers.misreported →
      Ends
        (fun a v' => Journal.Right journal r (.ok (reply a)) ∧
          Holds (journal ++ [⟨r, .ok (reply a)⟩]) { s with vouchers := v' })
        (fun e v' => Journal.Right journal r (.error e) ∧ v'.chains = s.vouchers.chains ∧
          v'.misreported = s.vouchers.misreported)
        (rest.run v)) :
    Meets journal s r := by
  have fails {e} {v : VoucherStore S} (hchains : v.chains = s.vouchers.chains)
      (hreports : v.misreported = s.vouchers.misreported) :
      Holds (journal ++ [⟨r, .error e⟩]) { s with vouchers := v } :=
    (h.idle (StoreEntry.idle_error r e)).alike (alike_setVouchers hchains hreports)
  refine Ends.split (P := fun o t => Answers journal s r o ∧ Holds (journal ++ [⟨r, o⟩]) t) ?_
  unfold ask
  rw [hact]
  refine Action.ends_map (Action.ends_within.2 (VoucherStore.ends_call ?_ ?_))
  · intro hout e v houtage hchains hreports
    exact ⟨.refused (hrefuses.trans hout) houtage, fails hchains hreports⟩
  · intro hup v hchains hreports
    have hup := hrefuses.trans hup
    exact (served v hchains hreports).mono (fun a v' hok => ⟨.served hup hok.1, hok.2⟩)
      fun e v' hbad => ⟨.served hup hbad.1, fails hbad.2.1 hbad.2.2⟩

theorem meets_read (h : Holds journal s) (which : RunningCost) (client : S.Party) :
    Meets journal s (.read which client) := by
  refine meets_costs which h rfl rfl fun c hc => ?_
  have hcost : c.cost client = (s.costs which).cost client := CostStore.cost_congr client hc
  have htotal : ((c.cost client).toNat : Int) = Journal.net which client journal := by rw [hcost, h.costs]
  exact ⟨.read htotal, (h.idle {}).alike (alike_setCosts hc)⟩

theorem meets_add (h : Holds journal s) (which : RunningCost) (client : S.Party) (atoms : Atoms) :
    Meets journal s (.add which client atoms) := by
  refine meets_costs which h rfl rfl fun c hc => ?_
  have hcost : c.cost client = (s.costs which).cost client := CostStore.cost_congr client hc
  have hcurrent := h.costs which client
  have hbook : which.book.cost = which := by cases which <;> rfl
  rw [Action.run_get_bind, hcost, hbook]
  cases hadd : Atoms.add? ((s.costs which).cost client) atoms with
  | none =>
    have hover := Atoms.add?_eq_none_iff.1 hadd
    refine ⟨.overflow hcurrent ?_, hc⟩
    rw [Atoms.toNat_top]
    omega
  | some sum =>
    have htotal : (sum.toNat : Int) = Journal.net which client journal + atoms.toNat := by
      rw [← Atoms.add?_eq_some_iff.1 hadd, ← hcurrent, Int.natCast_add]
    refine ⟨.add htotal, h.setCosts client sum (fun client' => ?_) (fun which' client' => ?_) (fun _ _ => rfl)
      fun _ _ => rfl⟩
    · rw [CostStore.cost_setCost, CostStore.cost_congr client' hc]
    · rw [Journal.net_add, htotal]

theorem meets_subtract (h : Holds journal s) (which : RunningCost) (client : S.Party) (atoms : Atoms) :
    Meets journal s (.subtract which client atoms) := by
  refine meets_costs which h rfl rfl fun c hc => ?_
  have hcost : c.cost client = (s.costs which).cost client := CostStore.cost_congr client hc
  have hcurrent := h.costs which client
  rw [Action.run_get_bind, hcost]
  cases hsub : Atoms.sub? ((s.costs which).cost client) atoms with
  | none =>
    have hbelow := Atoms.sub?_eq_none_iff.1 hsub
    exact ⟨.negative hcurrent (by omega), hc⟩
  | some rest =>
    have htotal : (rest.toNat : Int) = Journal.net which client journal - atoms.toNat := by
      have hrest := Atoms.sub?_eq_some_iff.1 hsub
      omega
    refine ⟨.subtract htotal, h.setCosts client rest (fun client' => ?_) (fun which' client' => ?_)
      (fun _ _ => rfl) fun _ _ => rfl⟩
    · rw [CostStore.cost_setCost, CostStore.cost_congr client' hc]
    · rw [Journal.net_subtract, htotal]

theorem meets_reset (h : Holds journal s) (client : S.Party) : Meets journal s (.reset client) := by
  refine meets_costs .unmarked h rfl rfl fun c hc => ?_
  refine ⟨.reset, h.setCosts client 0 (fun client' => ?_) (fun _ _ => Journal.net_reset) (fun _ _ => rfl)
    fun _ _ => rfl⟩
  rw [← CostStore.cost_congr client' hc]
  unfold CostStore.cost
  rw [Table.get?_erase]
  split <;> rfl

theorem meets_latestNonce (h : Holds journal s) (client vendor : S.Party) :
    Meets journal s (.latestNonce client vendor) := by
  refine meets_vouchers h rfl rfl fun v hchains hreports => ?_
  have hlatest : v.misreported.or (v.chain client vendor).latest? =
      (Journal.recorded client vendor journal).getLast?.map (·.nonce) := by
    rw [hreports, h.honest, Option.none_or, VoucherStore.chain_congr hchains, h.chain_latest]
  exact ⟨hlatest ▸ .latestNonce, (h.idle {}).alike (alike_setVouchers hchains hreports)⟩

theorem meets_insert (h : Holds journal s) (v : Voucher S) : Meets journal s (.insert v) := by
  refine meets_vouchers h rfl rfl fun w hchains hreports => ?_
  have hchain : w.chain v.client v.vendor = s.vouchers.chain v.client v.vendor := VoucherStore.chain_congr hchains
  have taken : Holds (journal ++ [⟨.insert v, .ok (.flag true)⟩])
      { s with vouchers := w.setChain v.client v.vendor ((s.vouchers.chain v.client v.vendor).append v) } := by
    refine h.setChain hchains hreports (fun _ _ => Journal.net_same rfl rfl) ?_ ?_ fun client vendor hother => ?_
    · simp [VoucherChain.append, StoreEntry.recorded?]
    · exact (List.append_nil _).symm
    · exact ⟨if_neg fun hown => hother (Prod.ext hown.1.symm hown.2.symm), rfl⟩
  rw [Action.run_get_bind, hchain]
  -- all that decides is the newest voucher recorded for the two, if there is one
  cases hnewest : (Journal.recorded v.client v.vendor journal).getLast? with
  | none =>
    have hlatest : (s.vouchers.chain v.client v.vendor).latest? = none := by
      rw [h.chain_latest, hnewest, Option.map_none]
    rw [VoucherChain.insert_of_none hlatest]
    exact ⟨.first (List.getLast?_eq_none_iff.1 hnewest), taken⟩
  | some newest =>
    have hlatest : (s.vouchers.chain v.client v.vendor).latest? = some newest.nonce := by
      rw [h.chain_latest, hnewest, Option.map_some]
    rw [VoucherChain.insert_of_some hlatest]
    split
    · next hold =>
      -- the chain is written back as it was
      exact ⟨.old hnewest hold, h.setChain hchains hreports (fun _ _ => Journal.net_same rfl rfl)
        (List.append_nil _).symm (List.append_nil _).symm fun _ _ _ => ⟨rfl, rfl⟩⟩
    · next hnew =>
      split
      · next hnext => exact ⟨.next hnewest hnext, taken⟩
      · next hgap => exact ⟨.gap hnewest (by omega), hchains, hreports⟩

theorem meets_isSpent (h : Holds journal s) (id : VoucherId S) : Meets journal s (.isSpent id) := by
  refine meets_vouchers h rfl rfl fun v hchains hreports => ?_
  have hspent : (v.chain id.client id.vendor).spent.contains id.nonce =
      decide (id.nonce ∈ Journal.marked id.client id.vendor journal) := by
    rw [VoucherStore.chain_congr hchains, h.spent]
    exact List.contains_eq_mem ..
  exact ⟨hspent ▸ .isSpent, (h.idle {}).alike (alike_setVouchers hchains hreports)⟩

theorem meets_markSpent (h : Holds journal s) (id : VoucherId S) : Meets journal s (.markSpent id) := by
  refine meets_vouchers h rfl rfl fun w hchains hreports => ?_
  have hchain : w.chain id.client id.vendor = s.vouchers.chain id.client id.vendor :=
    VoucherStore.chain_congr hchains
  rw [Action.run_get_bind, hchain]
  unfold VoucherChain.markSpent
  rw [h.vouchers, h.spent]
  -- an unknown nonce is turned down before anybody looks at the marks
  by_cases hknown : ∃ v ∈ Journal.recorded id.client id.vendor journal, v.nonce = id.nonce
  · rw [if_pos (by simpa using hknown)]
    by_cases hmarked : id.nonce ∈ Journal.marked id.client id.vendor journal
    · rw [if_pos (List.contains_iff_mem.2 hmarked)]
      exact ⟨.doubleSpend hmarked, hchains, hreports⟩
    · rw [if_neg (mt List.contains_iff_mem.1 hmarked)]
      obtain ⟨v, hv, hsame⟩ := hknown
      refine ⟨.markSpent hv hsame hmarked, h.setChain hchains hreports (fun _ _ => Journal.net_same rfl rfl)
        ?_ ?_ fun client vendor hother => ?_⟩
      · exact ((List.append_nil _).trans (h.vouchers _ _)).symm
      · simp [StoreEntry.marked?, h.spent]
      · exact ⟨rfl, if_neg fun hown => hother (Prod.ext hown.1.symm hown.2.symm)⟩
  · rw [if_neg (by simpa using hknown)]
    exact ⟨.unknown (by simpa using hknown), hchains, hreports⟩

theorem meets_unspent (h : Holds journal s) (client vendor : S.Party) :
    Meets journal s (.unspent client vendor) := by
  refine meets_vouchers h rfl rfl fun v hchains hreports => ?_
  have hunspent : (v.chain client vendor).unspent = Journal.unspent client vendor journal := by
    rw [VoucherStore.chain_congr hchains]
    unfold VoucherChain.unspent Journal.unspent
    rw [h.vouchers, h.spent]
    simp
  exact ⟨hunspent ▸ .unspent, (h.idle {}).alike (alike_setVouchers hchains hreports)⟩

end Requests

/-- Whatever is asked, the stores answer as they may, and hold what is then written. -/
theorem meets_ask (h : Holds journal s) (r : StoreRequest S) : Meets journal s r := by
  cases r with
  | read which client => exact meets_read h which client
  | add which client atoms => exact meets_add h which client atoms
  | subtract which client atoms => exact meets_subtract h which client atoms
  | reset client => exact meets_reset h client
  | latestNonce client vendor => exact meets_latestNonce h client vendor
  | insert v => exact meets_insert h v
  | isSpent id => exact meets_isSpent h id
  | markSpent id => exact meets_markSpent h id
  | unspent client vendor => exact meets_unspent h client vendor

end Stores
end VoucherGateway
