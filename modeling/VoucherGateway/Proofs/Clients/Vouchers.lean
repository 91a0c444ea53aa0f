import VoucherGateway.Proofs.Clients.Steps
import VoucherGateway.Proofs.Traffic.Totals

/-!
# Vouchers of one client — spent and accepted by two gateways abreast

Spending takes charged cost off the client's own vouchers, and what it remembers of a broken-off spend is for
the client's own queries.  So two gateways abreast spend the same vouchers, turn the same ones down, and open
the same sessions under other numbers.
-/

namespace VoucherGateway

variable {S : Scheme} {α : Type}

open Gateway

namespace Pairing

variable {σ : Pairing S} {g g' : Gateway S}

/-! ## Spending -/

section Spending

theorem echoes_noteMarked : σ.Echoes True (fun _ _ => True) (noteMarked σ.client) (noteMarked σ.client) := by
  refine .update fun g g' h => ?_
  have hpending := h.pending
  cases hp : g.interrupted.get? σ.client with
  | none =>
    rw [hp] at hpending
    simp only [Table.modify, hp, hpending, Option.map_none]
    exact h
  | some p =>
    rw [hp] at hpending
    simp only [Table.modify, hp, hpending, Option.map_some]
    have hserves := h.serves hp
    refine h.setPending (p := some { p with marked := true }) ?_
    rintro p' ⟨⟩
    exact ⟨hserves.voucher, hserves.query⟩

theorem echoes_completeSpend {p : PendingSpend S} (hp : σ.Serves p) :
    σ.Echoes True Eq (completeSpend σ.client p) (completeSpend σ.client (p.rename σ.numbers)) := by
  obtain ⟨v, query, marked⟩ := p
  have hv : v.client = σ.client := hp.voucher
  unfold completeSpend
  refine (echoes_subtractCost .unmarked _).bind ?_
  rintro left _ rfl
  refine Action.Echo.bind (.update fun g g' h => h.setPending (p := none) nofun) fun _ _ _ => ?_
  -- with or without a query, the voucher is queued in the end
  have queued : σ.Echoes True Eq
      (do
        let g ← get
        set { g with settlement := (g.settlement.push v).2 }
        if (g.settlement.push v).1 then pure left
        else throw (.violation (.nonceSequence (S.partyText σ.client)
          ("spent voucher " ++ v.id.text ++ " is not newer than the settlement queue"))))
      (do
        let g ← get
        set { g with settlement := (g.settlement.push v).2 }
        if (g.settlement.push v).1 then pure left
        else throw (.violation (.nonceSequence (S.partyText σ.client)
          ("spent voucher " ++ v.id.text ++ " is not newer than the settlement queue")))) := by
    refine .get_bind fun g g' h => ?_
    simp only [Settlement.push, hv, h.settlement]
    exact .bind (.set (h.putSettlement _)) fun _ _ _ => .ite (.pure rfl) (.throw (.plain trivial))
  cases query with
  | none => exact queued
  | some id =>
    refine (echoes_updateQuery (hp.query id rfl) ⟨?_, ?_, ?_, ?_, ?_, ?_⟩).bind fun _ _ _ => queued
    all_goals intros
    all_goals rfl

theorem echoes_spend {v : Voucher S} (hv : v.client = σ.client) {query : Option QueryId}
    (hquery : ∀ id, query = some id → σ.OwnsQuery id) :
    σ.Echoes True Eq (spend σ.client v query) (spend σ.client v (query.map σ.numbers.query)) := by
  have hserves : σ.Serves { voucher := v, query := query } := ⟨hv, hquery⟩
  unfold spend
  refine Action.Echo.bind (.update fun g g' h => ?_) fun _ _ _ => ?_
  · refine h.setPending (p := some { voucher := v, query := query }) ?_
    rintro p ⟨⟩
    exact hserves
  · exact (echoes_markSpent hv).bind fun _ _ _ => echoes_noteMarked.bind fun _ _ _ => echoes_completeSpend hserves

theorem echoes_ensureMarked {id : VoucherId S} (hid : id.client = σ.client) :
    σ.Echoes True (fun _ _ => True) (ensureMarked id) (ensureMarked id) := by
  refine (echoes_isSpent hid).bind ?_
  rintro marked _ rfl
  exact .ite (.pure trivial) (echoes_markSpent hid)

theorem echoes_resumeSpend : σ.Echoes True Eq (resumeSpend σ.client) (resumeSpend σ.client) := by
  refine .get_bind fun g g' h => ?_
  rw [h.pending]
  cases hp : g.interrupted.get? σ.client with
  | none => exact .pure rfl
  | some p =>
    have hserves := h.serves hp
    have finish : σ.Echoes True Eq
        (do
          let left ← completeSpend σ.client p
          pure (some left))
        (do
          let left ← completeSpend σ.client (p.rename σ.numbers)
          pure (some left)) := by
      refine (echoes_completeSpend hserves).bind ?_
      rintro left _ rfl
      exact .pure rfl
    have hmarked : (p.rename σ.numbers).marked = p.marked := rfl
    dsimp only [Option.map_some]
    rw [hmarked]
    cases p.marked with
    | true => exact finish
    | false =>
      exact (echoes_ensureMarked hserves.voucher).bind fun _ _ _ => echoes_noteMarked.bind fun _ _ _ => finish

theorem echoes_spendCovered {query : Option QueryId} (hquery : ∀ id, query = some id → σ.OwnsQuery id)
    {vs : List (Voucher S)} (hvs : ∀ v ∈ vs, v.client = σ.client) (unmarked : Atoms) :
    σ.Echoes True (fun _ _ => True) (spendCovered σ.client query vs unmarked)
      (spendCovered σ.client (query.map σ.numbers.query) vs unmarked) := by
  induction vs generalizing unmarked with
  | nil => exact .pure trivial
  | cons v rest ih =>
    have hv := hvs v List.mem_cons_self
    have ih := ih fun w hw => hvs w (List.mem_cons_of_mem v hw)
    refine .ite (.pure trivial) ((echoes_spend hv hquery).bind ?_)
    rintro left _ rfl
    exact ih left

theorem echoes_absorb {query : Option QueryId} (hquery : ∀ id, query = some id → σ.OwnsQuery id)
    (unmarked : Atoms) :
    σ.Echoes True (fun _ _ => True) (absorb σ.client unmarked query)
      (absorb σ.client unmarked (query.map σ.numbers.query)) := by
  refine echoes_resumeSpend.bind ?_
  rintro resumed _ rfl
  refine .get_bind fun g g' h => ?_
  rw [h.vendor]
  refine (echoes_unspent g.vendor).bind ?_
  rintro vs _ ⟨rfl, hvs⟩
  exact echoes_spendCovered hquery hvs _

end Spending

/-! ## Vouchers -/

section Vouchers

theorem echoes_reject {V : α → α → Prop} (reason : Rejection) :
    σ.Echoes True V (reject reason) (reject reason) :=
  (echoes_count .sessionRejected).bind fun _ _ _ => .throw (.plain trivial)

theorem echoes_absorbArrears (arrears : Atoms) :
    σ.Echoes True (fun _ _ => True) (absorbArrears σ.client arrears) (absorbArrears σ.client arrears) := by
  have none : ∀ id, (none : Option QueryId) = some id → σ.OwnsQuery id := nofun
  refine (Action.Echo.attempt (echoes_absorb none arrears)).bind ?_
  rintro _ _ (_ | halias)
  · exact .pure trivial
  · next e e' =>
    dsimp only
    rw [halias.isFatal]
    exact .ite (.throw halias) (.pure trivial)

theorem echoes_priorNonce : σ.Echoes True Eq (priorNonce σ.client) (priorNonce σ.client) := by
  refine .get_bind fun g g' h => ?_
  rw [h.vendor, h.config]
  refine (echoes_latestNonce g.vendor).bind ?_
  rintro latest _ rfl
  exact .pure rfl

theorem echoes_validate {v : Voucher S} (hv : v.client = σ.client) (config : CreditConfig) (vendor : S.Party)
    (prior : UInt64) (chain : ChainSnapshot) :
    σ.Echoes True Eq (onVouchers (v.validate config vendor prior chain))
      (onVouchers (v.validate config vendor prior chain)) := by
  have verdict : ∀ verdict : Verdict, σ.Echoes True Eq (onVouchers (pure verdict)) (onVouchers (pure verdict)) :=
    fun _ => echoes_view (fun _ => rfl) (fun _ => rfl) fun _ _ _ => .ok rfl
  unfold Voucher.validate
  cases v.checkStatic vendor prior with
  | rejected reason => exact verdict _
  | accepted =>
    dsimp only
    unfold Voucher.checkVolatile
    split
    · exact verdict _
    · split
      · exact verdict _
      · rw [onVouchers_bind]
        refine (echoes_isSpent hv).bind ?_
        rintro spent _ rfl
        cases spent <;> exact verdict _

theorem echoes_recordVoucher {v : Voucher S} (hv : v.client = σ.client) (prior : UInt64) (chain : ChainSnapshot) :
    σ.Echoes True Eq (recordVoucher v prior chain) (recordVoucher v prior chain) := by
  refine .get_bind fun g g' h => ?_
  rw [h.vendor, h.config]
  refine (echoes_validate hv _ g.vendor prior chain).bind ?_
  rintro verdict _ rfl
  cases verdict with
  | rejected reason => exact echoes_reject reason
  | accepted =>
    dsimp only
    rw [hv]
    refine (echoes_readCost .unmarked).bind ?_
    rintro arrears _ rfl
    refine (echoes_insert hv).bind ?_
    rintro added _ rfl
    exact .ite (echoes_reject _)
      (.ite ((echoes_absorbArrears arrears).bind fun _ _ _ => .pure rfl) (.pure rfl))

theorem echoes_acceptVoucher {v : Voucher S} (hv : v.client = σ.client) :
    σ.EchoesOp True Eq (acceptVoucher v) (acceptVoucher v) := by
  unfold acceptVoucher
  rw [hv]
  refine Op.Echo.bind echoes_priorNonce ?_
  rintro prior _ rfl
  refine .get_bind fun g g' h => ?_
  rw [h.vendor]
  refine (echoes_readChain g.vendor).bind ?_
  rintro chain _ rfl
  exact echoes_recordVoucher hv prior chain

/-- The number that a new session gets is the client's, on both sides. -/
structure ExpectsSession (σ : Pairing S) : Prop where
  left : σ.left.owners.session ⟨σ.left.ledger.sessions.next⟩ = σ.client
  right : σ.right.owners.session ⟨σ.right.ledger.sessions.next⟩ = σ.client

/-- The number that a new session gets is the same on both sides. -/
def SameSession (σ : Pairing S) : Prop :=
  σ.numbers.session ⟨σ.left.ledger.sessions.next⟩ = ⟨σ.right.ledger.sessions.next⟩

/-- Gateways abreast, with totals of counters. -/
def AbreastAt (σ : Pairing S) (early : Prop) (c c' : Counters) (g g' : Gateway S) : Prop :=
  σ.Abreast early g g' ∧ g.totals = c.totals ∧ g'.totals = c'.totals

theorem AbreastAt.late {early : Prop} {c c' : Counters} {g g' : Gateway S} (h : σ.AbreastAt early c c' g g') :
    σ.Abreast False g g' := h.1.late

/-- Silent steps leave the totals alone. -/
theorem echo_silent {V : α → α → Prop} {act act' : Step S α} {early late : Prop} {c c' : Counters}
    (hl : ∀ t, Silent t act) (hr : ∀ t, Silent t act')
    (h : Action.Echo σ.numbers (σ.Abreast early) (σ.Abreast late) V act act') :
    Action.Echo σ.numbers (σ.AbreastAt early c c') (σ.AbreastAt late c c') V act act' :=
  h.beside (fun _ => (hl _).keeps) fun _ => (hr _).keeps

theorem echo_idle {V : α → α → Prop} {act act' : Step S α} {early : Prop} {c c' : Counters}
    (hl : ∀ T, Idle T act) (hr : ∀ T, Idle T act') (h : σ.Echoes early V act act') :
    Action.Echo σ.numbers (σ.AbreastAt early c c') (σ.AbreastAt early c c') V act act' :=
  echo_silent (fun _ => silent_of_idle hl) (fun _ => silent_of_idle hr) h

/-- An idle step, and what follows it. -/
theorem echo_idle_bind {V : α → α → Prop} {W : β → β → Prop} {act act' : Step S α} {next next' : α → Step S β}
    {early : Prop} {c c' : Counters} (hl : ∀ T, Idle T act) (hr : ∀ T, Idle T act')
    (h : σ.Echoes early V act act') (hn : ∀ a a', V a a' →
      Action.Echo σ.numbers (σ.AbreastAt early c c') (σ.Abreast False) W (next a) (next' a')) :
    Action.Echo σ.numbers (σ.AbreastAt early c c') (σ.Abreast False) W (act >>= next) (act' >>= next') :=
  (echo_idle hl hr h).bind_last hn fun _ _ h => h.late

theorem echo_enter {early : Prop} {c c' : Counters} :
    Op.Echo σ.numbers (σ.AbreastAt early c c') (σ.AbreastAt early c c') (fun _ _ => True) (enter σ.client)
      (enter σ.client) :=
  echoes_enter.beside (silentOp_enter σ.client) (silentOp_enter σ.client)

/-- A session was opened on both sides, and each caller told by the counters there.  They stand abreast if it has
the same number on both. -/
structure Opened (σ : Pairing S) (c c' : Counters) (told : Completion SessionId) (k : Gateway S)
    (told' : Completion SessionId) (k' : Gateway S) : Prop where
  left : told = c.told .sessionAccepted ⟨σ.left.ledger.sessions.next⟩
  right : told' = c'.told .sessionAccepted ⟨σ.right.ledger.sessions.next⟩
  given : σ.left.ledger.sessions.next < k.sessions.next
  abreast : σ.SameSession → σ.Abreast False k k'

theorem endAlike_openSession (hnext : σ.ExpectsSession) (nonce : UInt64) {c c' : Counters} {g g' : Gateway S}
    (hg : σ.AbreastAt True c c' g g') :
    EndAlike σ.numbers (σ.Opened c c') (σ.Abreast False) ((openSession σ.client nonce).run g)
      ((openSession σ.client nonce).run g') := by
  obtain ⟨h, htotals, htotals'⟩ := hg
  have hleft : g.sessions.next = σ.left.ledger.sessions.next := (h.left.unmoved trivial).sessions
  have hright : g'.sessions.next = σ.right.ledger.sessions.next := (h.right.unmoved trivial).sessions
  rw [run_openSession, run_openSession, hleft, hright]
  refine .ok ⟨Counters.told_congr htotals _ _, Counters.told_congr htotals' _ _,
    Nat.lt_succ_of_le (Nat.le_of_eq hleft.symm), fun hsame => ?_⟩
  have hnumber : (⟨g'.sessions.next⟩ : SessionId) = σ.numbers.session ⟨g.sessions.next⟩ := by
    rw [hleft, hright, hsame]
  let s : Session S :=
    { id := ⟨g.sessions.next⟩, client := σ.client, vendor := g.vendor, chainHead := nonce
      openedAt := g.now, lastActivity := g.now }
  have hright' : (g'.sessions.openSession σ.client g'.vendor nonce g'.now).2 =
      { next := g'.sessions.next + 1, rows := g'.sessions.rows ++ [s.rename σ.numbers] } := by
    simp only [SessionTable.openSession, hnumber, h.vendor, h.now]
    rfl
  change σ.Abreast False { g with sessions := (g.sessions.openSession σ.client g.vendor nonce g.now).2 }
    { g' with sessions := (g'.sessions.openSession σ.client g'.vendor nonce g'.now).2 }
  refine h.late.amend (.opened s) ⟨rfl, ?_, rfl⟩ ⟨?_, ?_, rfl⟩ False.elim rfl ?_ rfl rfl
  · change σ.left.owners.session ⟨g.sessions.next⟩ = σ.client
    rw [hleft]
    exact hnext.left
  · exact (congrArg SessionId.number hnumber).symm
  · change σ.right.owners.session (σ.numbers.session ⟨g.sessions.next⟩) = σ.client
    rw [← hnumber, hright]
    exact hnext.right
  · rw [hright']
    rfl

theorem endAlike_acceptSession {v : Voucher S} (hv : v.client = σ.client) (hnext : σ.ExpectsSession)
    {g g' : Gateway S} (h : σ.Abreast True g g') :
    EndAlike σ.numbers (σ.Opened g.metrics.counters g'.metrics.counters) (σ.Abreast False)
      ((acceptSession v).run g) ((acceptSession v).run g') := by
  have hat : σ.AbreastAt True g.metrics.counters g'.metrics.counters g g' := ⟨h, rfl, rfl⟩
  have accepted := echoes_guarding (echoes_acceptVoucher hv)
  have silent : ∀ t, SilentOp t (guarding σ.client (acceptVoucher v)) := fun _ =>
    silentOp_guarding σ.client (silentOp_acceptVoucher v)
  unfold acceptSession
  rw [hv]
  refine echo_enter.ends_bind hat (fun _ _ h => h.1.late) fun _ _ _ k k' hk => ?_
  refine (accepted.beside (silent _) (silent _)).ends_bind hk (fun _ _ h => h.1.late) ?_
  rintro nonce _ rfl l l' hl
  exact endAlike_openSession hnext nonce hl

theorem echoes_topUp {id : SessionId} (hid : σ.OwnsSession id) (v : Voucher S) :
    σ.EchoesOp True (fun _ _ => True) (topUp id v) (topUp (σ.numbers.session id) v) := by
  refine Op.Echo.bind (echoes_findOpenSession hid) ?_
  rintro s _ ⟨rfl, hs⟩
  have hclient : (s.rename σ.numbers).client = s.client := rfl
  rw [hclient, hs]
  by_cases hv : v.client = σ.client
  · rw [if_neg (not_not_intro hv), if_neg (not_not_intro hv)]
    refine echoes_enter.bind fun _ _ _ => Op.Echo.bind (echoes_findOpenSession hid) fun _ _ _ => ?_
    refine Op.Echo.bind (echoes_guarding (echoes_acceptVoucher hv)) ?_
    rintro nonce _ rfl
    refine .get_bind fun g g' h => ?_
    rw [h.now]
    refine Action.Echo.update fun k k' hk => ?_
    exact hk.updateSession hid (fun _ => ⟨rfl, rfl⟩) fun _ => rfl
  · rw [if_pos hv, if_pos hv]
    exact .throw_bind (.foreignSession id _)

theorem echoes_closeSession {id : SessionId} (hid : σ.OwnsSession id) :
    σ.Echoes True (fun _ _ => True) (closeSession id) (closeSession (σ.numbers.session id)) := by
  refine .get_bind fun g g' h => ?_
  rw [h.find?_session hid]
  cases g.sessions.find? id with
  | none => exact .throw (.unknownSession id)
  | some s =>
    have hopen : (s.rename σ.numbers).isOpen = s.isOpen := rfl
    dsimp only [Option.map_some]
    rw [hopen, h.now]
    refine .ite (.bind (.set ?_) fun _ _ _ => echoes_count _) (.pure trivial)
    exact h.updateSession hid (fun _ => ⟨rfl, rfl⟩) fun _ => rfl

end Vouchers

end Pairing
end VoucherGateway
