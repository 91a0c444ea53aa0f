import VoucherGateway.Proofs.Clients.Vouchers

/-!
# Queries of one client — reserved, settled and aborted by two gateways abreast

A query locks cost of its own client and is paid with the client's own vouchers.  So two gateways abreast
reserve queries with the same estimates, settle them with the same receipts under other numbers, and abort
the same ones.
-/

namespace VoucherGateway

variable {S : Scheme} {α : Type}

open Gateway

theorem Gateway.run_findQuery_bind (id : QueryId) (next : Query S → Step S α) (g : Gateway S) :
    (findQuery id >>= next).run g =
      match g.queries.find? id with
      | some q => (next q).run g
      | none => (.error (.unknownQuery id.text), g) := by
  unfold findQuery
  rw [Action.run_bind, Action.run_get_bind]
  cases g.queries.find? id <;> rfl

namespace Pairing

variable {σ : Pairing S} {early : Prop} {g g' : Gateway S}

/-! ## Credit -/

theorem echoes_creditState (vendor : S.Party) :
    σ.Echoes early Eq (creditState vendor σ.client) (creditState vendor σ.client) := by
  refine (echoes_unspent vendor).bind ?_
  rintro vs _ ⟨rfl, -⟩
  refine (echoes_readCost .unmarked).bind ?_
  rintro unmarked _ rfl
  refine (echoes_readCost .locked).bind ?_
  rintro locked _ rfl
  exact .pure rfl

theorem echoes_creditAt (vendor : S.Party) (chain : ChainSnapshot) :
    σ.Echoes early Eq (creditAt vendor σ.client chain) (creditAt vendor σ.client chain) := by
  refine (echoes_creditState vendor).bind ?_
  rintro credit _ rfl
  have config : σ.Echoes early Eq (Action.view (·.config.credit)) (Action.view (·.config.credit)) :=
    echoes_view (fun _ => rfl) (fun _ => rfl) fun g g' h => .ok (congrArg GatewayConfig.credit h.config).symm
  refine config.bind ?_
  rintro config _ rfl
  exact .pure rfl

theorem echoes_headVoucher (vendor : S.Party) :
    σ.Echoes early Eq (headVoucher vendor σ.client) (headVoucher vendor σ.client) := by
  refine (echoes_unspent vendor).bind ?_
  rintro _ vs ⟨rfl, -⟩
  cases vs with
  | nil => exact .pure rfl
  | cons v rest =>
    refine (echoes_readCost .unmarked).bind ?_
    rintro unmarked _ rfl
    exact .pure rfl

/-! ## Reserving -/

/-- The number that a new query gets is the client's, on both sides. -/
structure ExpectsQuery (σ : Pairing S) : Prop where
  left : σ.left.owners.query ⟨σ.left.ledger.queries.next⟩ = σ.client
  right : σ.right.owners.query ⟨σ.right.ledger.queries.next⟩ = σ.client

/-- The number that a new query gets is the same on both sides. -/
def SameQuery (σ : Pairing S) : Prop :=
  σ.numbers.query ⟨σ.left.ledger.queries.next⟩ = ⟨σ.right.ledger.queries.next⟩

/-- Gateways abreast, but for the query number that was just given out on both sides. -/
def Numbered (σ : Pairing S) (k k' : Gateway S) : Prop :=
  ∃ g g', σ.Abreast True g g' ∧ k = { g with queries := g.queries.allocate.2 } ∧
    k' = { g' with queries := g'.queries.allocate.2 }

theorem Numbered.abreast {k k' : Gateway S} (h : σ.Numbered k k') : σ.Abreast False k k' := by
  obtain ⟨g, g', h, rfl, rfl⟩ := h
  exact h.late.amend .numbered trivial trivial False.elim rfl rfl rfl rfl

/-- Locking cost does not ask for queries. -/
theorem Numbered.echo_addLocked (atoms : Atoms) :
    Action.Echo σ.numbers σ.Numbered σ.Numbered (fun _ _ => True)
      (onBalances fun book => CostStore.add book σ.client atoms)
      (onBalances fun book => CostStore.add book σ.client atoms) := by
  rintro _ _ ⟨g, g', h, rfl, rfl⟩
  obtain ⟨hout, hrel⟩ := echoes_addCost .locked atoms g g' h
  exact ⟨hout.mono fun _ _ _ => trivial, _, _, hrel, rfl, rfl⟩

/-- The query whose number was given out is put on record. -/
theorem Numbered.insert {k k' : Gateway S} (h : σ.Numbered k k') (hnext : σ.ExpectsQuery) (hsame : σ.SameQuery)
    {q q' : Query S} (hid : q.id = ⟨σ.left.ledger.queries.next⟩) (hclient : q.client = σ.client)
    (hsession : σ.OwnsSession q.session) (hregular : q.Regular)
    (hq' : q' = { q.rename σ.numbers with id := ⟨σ.right.ledger.queries.next⟩ }) :
    σ.Abreast False { k with queries := k.queries.insert q } { k' with queries := k'.queries.insert q' } := by
  obtain ⟨g, g', h, rfl, rfl⟩ := h
  -- no other number was given out since the beginning
  have hleft : g.queries.next = σ.left.ledger.queries.next := (h.left.unmoved trivial).queries
  have hright : g'.queries.next = σ.right.ledger.queries.next := (h.right.unmoved trivial).queries
  have hid' : (q.rename σ.numbers).id = ⟨σ.right.ledger.queries.next⟩ := by
    rw [← hsame, ← hid]
    rfl
  obtain rfl : q' = q.rename σ.numbers := by
    rw [hq', ← hid']
  refine h.late.amend (.reserved q) ?_ ?_ False.elim rfl rfl rfl rfl
  · refine ⟨by rw [hid]; exact hleft.symm, by rw [hid]; exact hnext.left, hclient, ?_, hsession.left, hregular⟩
    exact Nat.lt_of_lt_of_le hsession.issued_left h.left.sessions
  · refine ⟨by rw [hid']; exact hright.symm, by rw [hid']; exact hnext.right, hclient, ?_, hsession.right,
      hregular.rename _⟩
    exact Nat.lt_of_lt_of_le hsession.issued_right h.right.sessions

/-- A query was reserved on both sides.  They stand abreast if it has the same number there. -/
structure Reserved (σ : Pairing S) (id : QueryId) (k : Gateway S) (id' : QueryId) (k' : Gateway S) : Prop where
  left : id = ⟨σ.left.ledger.queries.next⟩
  right : id' = ⟨σ.right.ledger.queries.next⟩
  given : σ.left.ledger.queries.next < k.queries.next
  abreast : σ.SameQuery → σ.Abreast False k k'

theorem endAlike_lockEstimate {session : SessionId} (hsession : σ.OwnsSession session) (hnext : σ.ExpectsQuery)
    (estimated : Atoms) (chain : ChainSnapshot) {g g' : Gateway S} (h : σ.Abreast True g g') :
    EndAlike σ.numbers σ.Reserved (σ.Abreast False) ((lockEstimate session σ.client estimated chain).run g)
      ((lockEstimate (σ.numbers.session session) σ.client estimated chain).run g') := by
  have turnedDown : ∀ e : Error, e.Plain → ∀ (next next' : PUnit → Step S QueryId) (g g' : Gateway S),
      σ.Abreast True g g' → EndAlike σ.numbers σ.Reserved (σ.Abreast False)
        (Action.run (do count .queryRejected; (throw e : Step S PUnit) >>= next) g)
        (Action.run (do count .queryRejected; (throw e : Step S PUnit) >>= next') g') :=
    fun e he next next' g g' h =>
      (echoes_count .queryRejected).ends_bind h (fun _ _ h => h.late) fun _ _ _ k k' hk => .error (.plain he) hk.late
  unfold lockEstimate
  split
  · exact turnedDown (.rejected .notSubscribed) trivial _ _ g g' h
  change EndAlike _ _ _ (Action.run (creditAt g.vendor σ.client chain >>= _) g)
    (Action.run (creditAt g'.vendor σ.client chain >>= _) g')
  rw [h.vendor]
  refine (echoes_creditAt g.vendor chain).ends_bind h (fun _ _ h => h.late) ?_
  rintro credit _ rfl g g' h
  split
  · exact turnedDown (.insufficientCredit estimated credit.available) trivial _ _ g g' h
  have hleft : g.queries.next = σ.left.ledger.queries.next := (h.left.unmoved trivial).queries
  have hright : g'.queries.next = σ.right.ledger.queries.next := (h.right.unmoved trivial).queries
  have allotted : σ.Numbered { g with queries := g.queries.allocate.2 }
      { g' with queries := g'.queries.allocate.2 } := ⟨g, g', h, rfl, rfl⟩
  -- the number is used up even if the cost cannot be locked
  change EndAlike _ _ _ (Action.run (onBalances _ >>= fun _ => _) _) (Action.run (onBalances _ >>= fun _ => _) _)
  refine (Numbered.echo_addLocked estimated).ends_bind allotted (fun _ _ h => h.abreast) ?_
  rintro - - - _ _ ⟨k, k', hk, rfl, rfl⟩
  let q : Query S :=
    { id := ⟨g.queries.next⟩, session := session, client := σ.client, estimated := estimated, state := .locked
      lockedAt := g.now }
  let q' : Query S :=
    { id := ⟨g'.queries.next⟩, session := σ.numbers.session session, client := σ.client, estimated := estimated
      state := .locked, lockedAt := g'.now }
  have hnumbered : σ.Numbered { k with queries := k.queries.allocate.2 } { k' with queries := k'.queries.allocate.2 } :=
    ⟨k, k', hk, rfl, rfl⟩
  refine .ok ⟨congrArg QueryId.mk hleft, congrArg QueryId.mk hright, ?_, fun hsame => ?_⟩
  · exact Nat.lt_succ_of_le hk.left.queries
  · have hq' : q' = { q.rename σ.numbers with id := ⟨σ.right.ledger.queries.next⟩ } := by
      simp only [q', hright, h.now]
      rfl
    exact hnumbered.insert hnext hsame (congrArg QueryId.mk hleft) rfl hsession ⟨.inl rfl, nofun⟩ hq'

theorem endAlike_reserve {session : SessionId} (hsession : σ.OwnsSession session) (hnext : σ.ExpectsQuery)
    (estimated : Atoms) {g g' : Gateway S} (h : σ.Abreast True g g') :
    EndAlike σ.numbers σ.Reserved (σ.Abreast False) ((reserve session σ.client estimated).run g)
      ((reserve (σ.numbers.session session) σ.client estimated).run g') := by
  refine Op.Echo.ends_bind echoes_resumeSpend h (fun _ _ h => h.late) fun _ _ _ k k' hk => ?_
  rw [Op.run_get_bind, Op.run_get_bind, hk.vendor]
  refine (echoes_readChain k.vendor).ends_bind hk (fun _ _ h => h.late) ?_
  rintro chain _ rfl l l' hl
  exact endAlike_lockEstimate hsession hnext estimated chain hl

theorem endAlike_acceptQuery {session : SessionId} (hsession : σ.OwnsSession session) (hnext : σ.ExpectsQuery)
    (estimated : Atoms) {g g' : Gateway S} (h : σ.Abreast True g g') :
    EndAlike σ.numbers σ.Reserved (σ.Abreast False) ((acceptQuery session estimated).run g)
      ((acceptQuery (σ.numbers.session session) estimated).run g') := by
  refine Op.Echo.ends_bind (echoes_findOpenSession hsession) h (fun _ _ h => h.late) ?_
  rintro s _ ⟨rfl, hs⟩ k k' hk
  have hclient : (s.rename σ.numbers).client = s.client := rfl
  rw [hclient, hs]
  refine echoes_enter.ends_bind hk (fun _ _ h => h.late) fun _ _ _ k k' hk => ?_
  refine Op.Echo.ends_bind (echoes_findOpenSession hsession) hk (fun _ _ h => h.late) fun _ _ _ k k' hk => ?_
  refine Op.endAlike_bind (Op.endAlike_guarding (endAlike_reserve hsession hnext estimated hk) ?_) ?_
  · intro e k k' hk
    exact hk.setHalt (some e.message)
  · intro id k id' k' hreserved
    refine .ok { hreserved with abreast := fun hsame => ?_ }
    have hnow : k'.now = k.now := (hreserved.abreast hsame).now
    change σ.Abreast False _ { k' with
      sessions := k'.sessions.update _ fun s => { s with lastActivity := k'.now } }
    rw [hnow]
    exact (hreserved.abreast hsame).updateSession hsession (fun _ => ⟨rfl, rfl⟩) fun _ => rfl

/-! ## Settling -/

section Settling

variable {id : QueryId} {q q' : Query S}

theorem echoes_fixCost (hid : σ.OwnsQuery id) (hq : σ.Found id q q') (usage : Usage) :
    σ.Echoes True Eq (fixCost q usage) (fixCost q' usage) := by
  obtain ⟨rfl, rfl, -, -, -⟩ := hq
  have hactual : (q.rename σ.numbers).actual = q.actual := rfl
  unfold fixCost
  rw [hactual]
  cases q.actual with
  | some cost => exact .pure rfl
  | none =>
    refine .get_bind fun g g' h => ?_
    rw [h.config]
    refine (echoes_updateQuery hid ⟨?_, ?_, ?_, ?_, ?_, ?_⟩).bind fun _ _ _ => .pure rfl
    all_goals intros
    all_goals rfl

theorem echoes_releaseEstimate (hid : σ.OwnsQuery id) (hq : σ.Found id q q') :
    σ.Echoes True (fun _ _ => True) (releaseEstimate q) (releaseEstimate q') := by
  obtain ⟨rfl, rfl, hclient, -, -⟩ := hq
  have hreleased : (q.rename σ.numbers).released = q.released := rfl
  have hclient' : (q.rename σ.numbers).client = q.client := rfl
  unfold releaseEstimate
  rw [hreleased, hclient', hclient]
  refine .ite ((echoes_subtractCost .locked _).bind fun _ _ _ => ?_) (.pure trivial)
  refine echoes_updateQuery hid ⟨?_, ?_, ?_, ?_, ?_, ?_⟩
  all_goals intros
  all_goals rfl

theorem echoes_charge (hid : σ.OwnsQuery id) (hq : σ.Found id q q') (cost : Atoms) :
    σ.Echoes True Eq (charge q cost) (charge q' cost) := by
  obtain ⟨rfl, rfl, hclient, -, -⟩ := hq
  have hcharged : (q.rename σ.numbers).charged = q.charged := rfl
  have hclient' : (q.rename σ.numbers).client = q.client := rfl
  unfold charge
  rw [hcharged, hclient', hclient]
  have flag : ∀ unmarked unmarked' : Atoms, unmarked = unmarked' → σ.Echoes True Eq
      (do
        updateQuery q.id fun q => { q with charged := true }
        pure unmarked)
      (do
        updateQuery (σ.numbers.query q.id) fun q => { q with charged := true }
        pure unmarked') := by
    rintro unmarked _ rfl
    refine (echoes_updateQuery hid ⟨?_, ?_, ?_, ?_, ?_, ?_⟩).bind fun _ _ _ => .pure rfl
    all_goals intros
    all_goals rfl
  exact .ite (echoes_readCost .unmarked)
    (.ite ((echoes_addCost .unmarked cost).bind flag) ((echoes_readCost .unmarked).bind flag))

theorem echo_issueReceipt (hid : σ.OwnsQuery id) (hawaits : σ.Awaits id) (cost : Atoms)
    (partlyUsed : Option (VoucherId S)) (creditAfter : CreditState) :
    Action.Echo σ.numbers (σ.Abreast True) (σ.Abreast False)
      (fun r r' => r' = r.rename σ.numbers ∧ r.actual = cost)
      (issueReceipt id cost partlyUsed creditAfter)
      (issueReceipt (σ.numbers.query id) cost partlyUsed creditAfter) := by
  intro g g' h
  unfold issueReceipt
  rw [Action.run_get_bind, Action.run_get_bind, run_findQuery_bind, run_findQuery_bind, h.find?_query hid, h.now]
  cases hq : g.queries.find? id with
  | none => exact ⟨.error (.unknownQuery id), h.late⟩
  | some q =>
    obtain ⟨hmem, hqid⟩ := QueryTable.mem_of_find? hq
    have hlocked := h.locked hawaits hmem hqid
    have hlocked' : (q.rename σ.numbers).state = .locked := hlocked
    dsimp only [Option.map_some]
    rw [Query.moveTo_of_locked q hlocked rfl, Query.moveTo_of_locked _ hlocked' rfl]
    refine ⟨.ok ⟨rfl, rfl⟩, h.concludeQuery hid hq rfl rfl rfl rfl ?_⟩
    refine ⟨.inr (.inr ⟨rfl, rfl⟩), ?_⟩
    rintro r ⟨⟩
    exact ⟨hqid.symm, rfl⟩

/-- Both callers are to be given the same receipt, under other numbers.  It is on record, or it is told once the
settlement is recorded, by the counters of each side. -/
inductive SameReceipt (σ : Pairing S) (c c' : Counters) : Completion (Receipt S) → Completion (Receipt S) → Prop
  | again (receipt : Receipt S) : SameReceipt σ c c' (.returned receipt) (.returned (receipt.rename σ.numbers))
  | first (receipt : Receipt S) :
    SameReceipt σ c c' (c.told (.querySettled receipt.actual) receipt)
      (c'.told (.querySettled receipt.actual) (receipt.rename σ.numbers))

theorem echo_finishSettling (hid : σ.OwnsQuery id) (hawaits : σ.Awaits id) (hq : σ.Found id q q') (usage : Usage)
    (c c' : Counters) :
    Action.Echo σ.numbers (σ.AbreastAt True c c') (σ.Abreast False) (σ.SameReceipt c c')
      (finishSettling q usage) (finishSettling q' usage) := by
  refine echo_idle_bind (fun _ => idle_fixCost q usage) (fun _ => idle_fixCost q' usage)
    (echoes_fixCost hid hq usage) ?_
  rintro cost _ rfl
  refine echo_idle_bind (fun _ => idle_releaseEstimate q) (fun _ => idle_releaseEstimate q')
    (echoes_releaseEstimate hid hq) fun _ _ _ => ?_
  refine echo_idle_bind (fun _ => idle_charge q cost) (fun _ => idle_charge q' cost) (echoes_charge hid hq cost) ?_
  rintro unmarked _ rfl
  obtain ⟨rfl, rfl, hclient, -, -⟩ := hq
  have hclient' : (q.rename σ.numbers).client = q.client := rfl
  rw [hclient', hclient]
  have hquery : ∀ id, some q.id = some id → σ.OwnsQuery id := by
    rintro id ⟨⟩
    exact hid
  refine echo_idle_bind (fun _ => idle_absorb _ _ _) (fun _ => idle_absorb _ _ _)
    (echoes_absorb hquery unmarked) fun _ _ _ => ?_
  refine .get_bind fun g g' h => ?_
  rw [h.1.vendor]
  refine echo_idle_bind (fun _ => idle_creditState _ _) (fun _ => idle_creditState _ _)
    (echoes_creditState g.vendor) ?_
  rintro credit _ rfl
  have finish : ∀ head head' : Option (HeadVoucher S), head = head' →
      Action.Echo σ.numbers (σ.AbreastAt True c c') (σ.Abreast False) (σ.SameReceipt c c')
      (do
        let receipt ← issueReceipt q.id cost (head.map (·.voucher.id)) credit
        report (.querySettled cost) receipt)
      (do
        let receipt ← issueReceipt (σ.numbers.query q.id) cost (head'.map (·.voucher.id)) credit
        report (.querySettled cost) receipt) := by
    rintro head _ rfl
    have issued := echo_issueReceipt hid hawaits cost (head.map (·.voucher.id)) credit
    refine Action.Echo.bind_last (echo_silent (fun _ => silent_issueReceipt _ _ _ _)
      (fun _ => silent_issueReceipt _ _ _ _) issued) ?_ fun _ _ h => h.1
    rintro receipt _ ⟨rfl, rfl⟩ k k' ⟨hk, htotals, htotals'⟩
    rw [run_report, run_report, Counters.told_congr htotals, Counters.told_congr htotals']
    exact ⟨.ok (.first receipt), (echoes_count _ k k' hk).2⟩
  exact .ite (echo_idle_bind (fun _ => idle_headVoucher _ _) (fun _ => idle_headVoucher _ _)
    (echoes_headVoucher g.vendor) finish) (finish none none rfl)

theorem echo_settleNow (hid : σ.OwnsQuery id) (usage : Usage) (c c' : Counters) :
    Action.Echo σ.numbers (σ.AbreastAt True c c') (σ.Abreast False) (σ.SameReceipt c c')
      (settleNow id usage) (settleNow (σ.numbers.query id) usage) := by
  refine echo_idle_bind (fun _ => idle_findQuery _) (fun _ => idle_findQuery _) (echoes_findQuery hid) ?_
  intro q q' hq
  obtain rfl := hq.renamed
  have hstate : (q.rename σ.numbers).state = q.state := rfl
  have hreceipt : (q.rename σ.numbers).receipt = q.receipt.map (·.rename σ.numbers) := rfl
  rw [hstate, hreceipt]
  -- a query on record is locked, aborted, or settled with a receipt
  rcases hq.regular.state with hlocked | haborted | ⟨hsettled, hsome⟩
  · have goOn := echo_finishSettling hid (hq.awaits hlocked) hq usage c c'
    rw [hlocked]
    cases q.receipt <;> exact goOn
  · rw [haborted]
    have refused : Action.Echo σ.numbers (σ.AbreastAt True c c') (σ.Abreast False) (σ.SameReceipt c c')
        (throw (.queryAborted q.id.text) : Step S (Completion (Receipt S)))
        (throw (.queryAborted (q.rename σ.numbers).id.text)) :=
      Action.Echo.mono (.throw (.queryAborted q.id)) (fun _ _ h => h.late) fun _ _ h => h
    cases q.receipt <;> exact refused
  · obtain ⟨receipt, hr⟩ := Option.isSome_iff_exists.1 hsome
    rw [hsettled, hr]
    exact Action.Echo.mono (.pure (.again receipt)) (fun _ _ h => h.late) fun _ _ h => h

theorem echo_settleQuery (hid : σ.OwnsQuery id) (usage : Usage) (c c' : Counters) :
    Op.Echo σ.numbers (σ.AbreastAt True c c') (σ.Abreast False) (σ.SameReceipt c c')
      (settleQuery id usage) (settleQuery (σ.numbers.query id) usage) := by
  refine Op.Echo.bind_last (echo_idle (fun _ => idle_findQuery _) (fun _ => idle_findQuery _)
    (echoes_findQuery hid)) ?_ fun _ _ h => h.late
  intro q q' hq
  obtain rfl := hq.renamed
  have hclient : (q.rename σ.numbers).client = q.client := rfl
  rw [hclient, hq.client]
  refine Op.Echo.bind_last echo_enter (fun _ _ _ => ?_) fun _ _ h => h.late
  exact echoes_guarding (echo_settleNow hid usage c c')

end Settling

/-! ## Aborting -/

section Aborting

variable {id : QueryId} {q q' : Query S}

theorem echo_finishAborting (hid : σ.OwnsQuery id) (hawaits : σ.Awaits id) (hq : σ.Found id q q') (forced : Bool) :
    Action.Echo σ.numbers (σ.Abreast True) (σ.Abreast False) (fun _ _ => True)
      (finishAborting q forced) (finishAborting q' forced) := by
  refine Action.Echo.bind_last (echoes_releaseEstimate hid hq) (fun _ _ _ => ?_) fun _ _ h => h.late
  obtain ⟨rfl, rfl, -, -, -⟩ := hq
  have hqid : (q.rename σ.numbers).id = σ.numbers.query q.id := rfl
  rw [hqid]
  intro g g' h
  rw [Action.run_get_bind, Action.run_get_bind, run_findQuery_bind, run_findQuery_bind, h.find?_query hid, h.now]
  cases hc : g.queries.find? q.id with
  | none => exact ⟨.error (.unknownQuery q.id), h.late⟩
  | some current =>
    obtain ⟨hmem, hcid⟩ := QueryTable.mem_of_find? hc
    have hcurrent := h.locked hawaits hmem hcid
    have hlocked : ({ current with forced := forced } : Query S).state = .locked := hcurrent
    have hlocked' : ({ current.rename σ.numbers with forced := forced } : Query S).state = .locked := hcurrent
    have hregular := h.left.tidy.regular current hmem
    dsimp only [Option.map_some]
    rw [Query.moveTo_of_locked _ hlocked rfl, Query.moveTo_of_locked _ hlocked' rfl]
    refine ⟨.ok trivial, ?_⟩
    exact h.concludeQuery hid hc rfl rfl rfl rfl ⟨.inr (.inl rfl), hregular.receipt⟩

theorem echo_abortNow (hid : σ.OwnsQuery id) (forced : Bool) :
    Action.Echo σ.numbers (σ.Abreast True) (σ.Abreast False) (fun _ _ => True)
      (abortNow id forced) (abortNow (σ.numbers.query id) forced) := by
  refine Action.Echo.bind_last (echoes_findQuery hid) ?_ fun _ _ h => h.late
  intro q q' hq
  obtain rfl := hq.renamed
  have hstate : (q.rename σ.numbers).state = q.state := rfl
  rw [hstate]
  rcases hq.regular.state with hlocked | haborted | ⟨hsettled, -⟩
  · rw [hlocked]
    exact echo_finishAborting hid (hq.awaits hlocked) hq forced
  · rw [haborted]
    exact Action.Echo.mono (.pure trivial) (fun _ _ h => h.late) fun _ _ h => h
  · rw [hsettled]
    exact Action.Echo.mono (.throw (.querySettled q.id)) (fun _ _ h => h.late) fun _ _ h => h

theorem echo_abort (hid : σ.OwnsQuery id) (forced : Bool) :
    Op.Echo σ.numbers (σ.Abreast True) (σ.Abreast False) (fun _ _ => True)
      (abort id forced) (abort (σ.numbers.query id) forced) := by
  refine Op.Echo.bind_last (echoes_findQuery hid) ?_ fun _ _ h => h.late
  intro q q' hq
  obtain rfl := hq.renamed
  have hclient : (q.rename σ.numbers).client = q.client := rfl
  rw [hclient, hq.client]
  refine Op.Echo.bind_last echoes_enter (fun _ _ _ => ?_) fun _ _ h => h.late
  exact echoes_guarding (echo_abortNow hid forced)

end Aborting

end Pairing
end VoucherGateway
