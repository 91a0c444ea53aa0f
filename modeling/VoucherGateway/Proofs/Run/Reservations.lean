import VoucherGateway.Proofs.Run.Admissions

/-!
# Reservations — what the credit that is reported allows

A client is told its available credit, and reserves queries against it.  Reading the credit leaves everything as
it was (`after_availableIn`); a reservation first finishes the client's spend that broke off, which never lowers
the credit, and then takes the estimate exactly if it is within the credit (`reservation_cases`).  Main
statement: estimates that are made one after another while the chain reads the same are granted greedily, out of
what is uncommitted at the beginning (`reserves_exactly_available`).
-/

namespace VoucherGateway

variable {S : Scheme}

/-! ## Granting in turn -/

/-- Which of some estimates are granted in turn, each out of what those before it leave uncommitted, and none
above a cap. -/
def granted (cap : Atoms) : Atoms → List Atoms → List Bool
  | _, [] => []
  | raw, estimated :: rest =>
    if estimated ≤ min raw cap then true :: granted cap (raw - estimated) rest
    else false :: granted cap raw rest

/-- The sum of the estimates that are granted by some verdicts. -/
def sumGranted (estimates : List Atoms) (verdicts : List Bool) : Nat :=
  (((estimates.zip verdicts).filter (·.2)).map (·.1.toNat)).sum

theorem sumGranted_cons (estimated : Atoms) (rest : List Atoms) (verdict : Bool) (verdicts : List Bool) :
    sumGranted (estimated :: rest) (verdict :: verdicts) =
      (if verdict then estimated.toNat else 0) + sumGranted rest verdicts := by
  cases verdict <;> simp [sumGranted]

/-- No more is granted than there is. -/
theorem sumGranted_le (cap raw : Atoms) (estimates : List Atoms) :
    sumGranted estimates (granted cap raw estimates) ≤ raw.toNat := by
  induction estimates generalizing raw with
  | nil => exact Nat.zero_le _
  | cons estimated rest ih =>
    unfold granted
    split
    · next hle =>
      have hraw := (Std.le_min_iff.1 hle).1
      have hrest := ih (raw - estimated)
      rw [Atoms.toNat_sub_of_le hraw] at hrest
      have hle := UInt64.le_iff_toNat_le.1 hraw
      rw [sumGranted_cons, if_pos rfl]
      omega
    · rw [sumGranted_cons, if_neg Bool.false_ne_true, Nat.zero_add]
      exact ih raw

theorem sumGranted_refused {α : Type} (estimated : α → Atoms) (requests : List α) :
    sumGranted (requests.map estimated) (requests.map fun _ => false) = 0 := by
  induction requests with
  | nil => rfl
  | cons r later ih =>
    rw [List.map_cons, List.map_cons, sumGranted_cons, ih]
    rfl

/-- An estimate that is to be reserved in a session, in a world. -/
structure Reservation (S : Scheme) where
  world : World S
  session : SessionId
  estimated : Atoms

/-- The move by which an estimate is to be reserved. -/
def Reservation.move (r : Reservation S) : Move S := ⟨r.world, .acceptQuery r.session r.estimated⟩

namespace Gateway

/-! ## Reading the credit -/

/-- What a client is told in a world about its available credit, and the gateway after it. -/
def availableIn (g : Gateway S) (w : World S) (client : S.Party) : Except Error Atoms × Gateway S :=
  (availableCredit g.vendor client).run (g.inWorld w)

/-- A step that changes nothing but what is outside. -/
abbrev Passive {α : Type} (g : Gateway S) (act : Step S α) : Prop :=
  Action.Confined (fun g' => ∃ w, g' = g.inWorld w) (fun _ => True) act

variable {g : Gateway S} {w : World S} {client : S.Party} {chain : ChainSnapshot} {id : SessionId}
variable {estimated : Atoms}

theorem passive_creditAt (g : Gateway S) (vendor client : S.Party) (chain : ChainSnapshot) :
    Passive g (creditAt vendor client chain) := by
  have unspent : Passive g (onVouchers (VoucherStore.unspent (S := S) client vendor)) := by
    refine Action.Confined.within (R := fun s => ∃ o, s = { g.vouchers with outage := o }) ?_
      (fun _ ⟨w, hw⟩ => ⟨w.vouchers, by rw [hw]; rfl⟩)
      fun _ _ ⟨o, ho⟩ ⟨w, hw⟩ => ⟨{ w with vouchers := o }, by rw [ho, hw]; rfl⟩
    refine Action.Confined.bind ?_ fun _ => .get_bind fun _ _ => .pure _
    exact (Action.Confined.trivial _).within (fun _ _ => True.intro) fun o _ _ ⟨_, hs⟩ => ⟨o, by rw [hs]⟩
  have read : ∀ (book : CostBook) (s₀ : CostStore S), Action.Confined (fun s => ∃ o, s = { s₀ with outage := o })
      (fun _ => True) (CostStore.read book client) := fun book s₀ =>
    ((Action.Confined.trivial _).within (fun _ _ => True.intro) fun o _ _ ⟨_, hs⟩ => ⟨o, by rw [hs]⟩).bind
      fun _ => .view _
  have unmarked : Passive g (onUnmarked fun book => CostStore.read (S := S) book client) :=
    (read .unmarked g.unmarked).within (fun _ ⟨w, hw⟩ => ⟨w.unmarked, by rw [hw]; rfl⟩)
      fun _ _ ⟨o, ho⟩ ⟨w, hw⟩ => ⟨{ w with unmarked := o }, by rw [ho, hw]; rfl⟩
  have locked : Passive g (onBalances fun book => CostStore.read (S := S) book client) :=
    (read .balances g.balances).within (fun _ ⟨w, hw⟩ => ⟨w.balances, by rw [hw]; rfl⟩)
      fun _ _ ⟨o, ho⟩ ⟨w, hw⟩ => ⟨{ w with balances := o }, by rw [ho, hw]; rfl⟩
  exact (unspent.bind fun _ => unmarked.bind fun _ => locked.bind fun _ => .pure _).bind fun _ =>
    Action.Confined.bind (.view _) fun _ => .pure _

/-- Whatever a gateway is asked after a client's credit was read, it does as if that had not been read. -/
theorem after_availableIn (g : Gateway S) (w : World S) (client : S.Party) (m : Move S) :
    (g.availableIn w client).2.after m = g.after m := by
  have hpassive : ∃ w', (g.availableIn w client).2 = g.inWorld w' := by
    unfold availableIn availableCredit creditSnapshot
    rw [Op.run_bind, Op.run_bind, Op.run_readChain]
    dsimp only
    generalize (ChainReader.read client g.vendor).run ChainReader.elapse (g.inWorld w).chain = read
    obtain ⟨outcome, r⟩ := read
    cases outcome with
    | error detail => exact ⟨{ w with chain := r }, rfl⟩
    | ok chain =>
      have hcredit := passive_creditAt g g.vendor client chain (g.inWorld { w with chain := r }) ⟨_, rfl⟩
      dsimp only [Except.mapError]
      rw [Op.run_perform]
      change Ends _ _ ((creditAt g.vendor client chain).run { g.inWorld w with chain := r }) at hcredit
      rcases hr : (creditAt g.vendor client chain).run { g.inWorld w with chain := r } with ⟨e | a, g'⟩ <;>
        rw [hr] at hcredit
      · exact hcredit.1
      · exact hcredit
  obtain ⟨w', hw'⟩ := hpassive
  rw [hw']
  rfl

/-- A client is told what is available at the reading of the chain. -/
theorem ends_availableIn (g : Gateway S) (w : World S) (client : S.Party) :
    Ends
      (fun a _ => ∃ chain, g.readingIn w client = .ok chain ∧ a = (g.ledger.snapshot client chain).available)
      (fun e _ => (∃ detail, g.readingIn w client = .error detail) ∨ e.IsOutage ∧ ¬ w.Reliable)
      (g.availableIn w client) := by
  unfold availableIn availableCredit creditSnapshot
  rw [Op.run_bind, Op.run_bind, Op.run_readChain]
  have hread : ((ChainReader.read client g.vendor).run ChainReader.elapse (g.inWorld w).chain).1 =
    g.readingIn w client := rfl
  dsimp only
  rw [hread]
  cases hreading : g.readingIn w client with
  | error detail => exact .inl ⟨detail, rfl⟩
  | ok chain =>
    let g₁ : Gateway S := { g.inWorld w with
      chain := ((ChainReader.read client g.vendor).run ChainReader.elapse (g.inWorld w).chain).2 }
    have hends : Ends _ _ ((creditAt g.vendor client chain).run g₁) := ends_creditAt client rfl rfl chain
    have hcredit := hends.and ((steady_creditAt g.vendor client chain).ends g₁)
    dsimp only [Except.mapError]
    rw [Op.run_perform]
    rcases hr : (creditAt g.vendor client chain).run g₁ with ⟨e | a, g'⟩ <;> rw [hr] at hcredit
    · exact .inr ⟨hcredit.1.2, fun hw => hcredit.2 hw hcredit.1.2⟩
    · exact ⟨chain, rfl, congrArg CreditSnapshot.available hcredit.1.2⟩

theorem availableIn_ok (hw : w.Reliable) (hread : g.readingIn w client = .ok chain) :
    (g.availableIn w client).1 = .ok (g.ledger.snapshot client chain).available := by
  have h := ends_availableIn g w client
  rcases hr : g.availableIn w client with ⟨e | a, g'⟩ <;> rw [hr] at h
  · rcases h with ⟨detail, hfailed⟩ | ⟨-, hfailed⟩
    · cases hread.symm.trans hfailed
    · exact absurd hw hfailed
  · obtain ⟨chain', hread', rfl⟩ := h
    obtain rfl := Except.ok.inj (hread.symm.trans hread')
    rfl

/-! ## A reservation -/

/-- How the reservation of an estimate in a session ends. -/
theorem ends_reservation (hL : g.ledger.Sound) (w : World S) (id : SessionId) (estimated : Atoms) :
    Ends
      (fun reply g' => ∃ s q M time, reply = .query q ∧ g.sessions.find? id = some s ∧ s.isOpen = true ∧
        g.ledger.Grants id s.client estimated (g.readingIn w s.client) q M ∧
        g'.ledger = M.post (.renewed id none time))
      (fun e g' => (∃ s, g.sessions.find? id = some s ∧
          g.ledger.Withholds s.client estimated (g.readingIn w s.client) w.Reliable e g'.ledger) ∨
        g'.ledger = g.ledger ∧
          ∀ s, g.sessions.find? id = some s → s.isOpen = true → g.gate.isHalted s.client = true)
      (g.after ⟨w, .acceptQuery id estimated⟩) := by
  unfold after
  refine Op.ends_map ((ends_acceptQuery (g := g.inWorld w) id estimated hL rfl).mono ?_ ?_)
  · rintro q g' ⟨s, M, time, hs, hopen, -, hgrants, hg'⟩
    exact ⟨s, q, M, time, rfl, hs, hopen, hgrants, hg'⟩
  · rintro e g' (⟨s, hs, hwithholds⟩ | ⟨hg', -, hnone⟩)
    · exact .inl ⟨s, hs, hwithholds⟩
    · refine .inr ⟨hg', fun s hs hopen => ?_⟩
      rw [← Bool.not_eq_false]
      exact fun hrun => hnone s hs hopen (isHalted_eq_false_iff.1 hrun)

/-- Whatever is not reserved leaves nothing locked and no query. -/
theorem unreserved_after (hL : g.ledger.Sound) {e : Error}
    (he : (g.after ⟨w, .acceptQuery id estimated⟩).1 = .error e) :
    g.ledger.Unreserved (g.after ⟨w, .acceptQuery id estimated⟩).2.ledger := by
  rcases (ends_reservation hL w id estimated).of_error he with ⟨s, -, hwithholds⟩ | ⟨hsame, -⟩
  · exact hwithholds.unreserved
  · rw [hsame]
    exact .refl _

/-- The ledger that a reservation leaves, once the client's spend that broke off is finished. -/
def reservedLedger (g : Gateway S) (id : SessionId) (client : S.Party) (estimated : Atoms) (locked used : Nat) :
    Ledger S :=
  let L := g.ledger.finished client
  (L.post (.reserved (L.locking id client estimated locked))).post (.renewed id none used)

theorem reserved_after_ok (hL : g.ledger.Sound) {reply : Reply S}
    (hr : (g.after ⟨w, .acceptQuery id estimated⟩).1 = .ok reply) :
    ∃ s chain locked used, g.sessions.find? id = some s ∧ s.isOpen = true ∧
      g.readingIn w s.client = .ok chain ∧ chain.isActive = true ∧
      estimated ≤ ((g.ledger.finished s.client).snapshot s.client chain).available ∧
      reply = .query ⟨g.queries.next⟩ ∧
      (g.after ⟨w, .acceptQuery id estimated⟩).2.ledger = g.reservedLedger id s.client estimated locked used := by
  obtain ⟨s, q, M, used, rfl, hs, hopen, ⟨hq, ⟨chain, hread, hactive, hle⟩, locked, rfl⟩, hg'⟩ :=
    (ends_reservation hL w id estimated).of_ok hr
  refine ⟨s, chain, locked, used, hs, hopen, hread, hactive, hle, ?_, hg'⟩
  cases q
  exact congrArg (fun n => Reply.query ⟨n⟩) hq

/-- For a client who is not halted an estimate is reserved exactly if it is within the credit, while stores and
chain answer; if it is not, the count of queries turned down is all that changes. -/
theorem reservation_cases (estimated : Atoms) (hL : g.ledger.Sound) {s : Session S}
    (hs : g.sessions.find? id = some s) (hopen : s.isOpen = true) (hrun : g.gate.isHalted s.client = false)
    (hw : w.Reliable) (hread : g.readingIn w s.client = .ok chain) :
    (∃ locked used, (g.after ⟨w, .acceptQuery id estimated⟩).1 = .ok (.query ⟨g.queries.next⟩) ∧
        (chain.isActive = true ∧ estimated ≤ ((g.ledger.finished s.client).snapshot s.client chain).available) ∧
        (g.after ⟨w, .acceptQuery id estimated⟩).2.ledger =
          g.reservedLedger id s.client estimated locked used) ∨
      ∃ e, (g.after ⟨w, .acceptQuery id estimated⟩).1 = .error e ∧
        ¬ (chain.isActive = true ∧
          estimated ≤ ((g.ledger.finished s.client).snapshot s.client chain).available) ∧
        (g.after ⟨w, .acceptQuery id estimated⟩).2.ledger =
          (g.ledger.finished s.client).post (.refused .queryRejected) := by
  cases houtcome : (g.after ⟨w, .acceptQuery id estimated⟩).1 with
  | ok reply =>
    obtain ⟨s', chain', locked, used, hs', -, hread', hactive, hle, rfl, hledger⟩ :=
      reserved_after_ok hL houtcome
    obtain rfl := Option.some.inj (hs.symm.trans hs')
    obtain rfl := Except.ok.inj (hread.symm.trans hread')
    exact .inl ⟨locked, used, rfl, ⟨hactive, hle⟩, hledger⟩
  | error e =>
    refine .inr ⟨e, rfl, ?_⟩
    rcases (ends_reservation hL w id estimated).of_error houtcome with ⟨s', hs', hwithholds⟩ | ⟨-, hnone⟩
    · obtain rfl := Option.some.inj (hs.symm.trans hs')
      exact hwithholds.unaffordable hw hread
    · exact absurd ((hnone s hs hopen).symm.trans hrun) nofun

/-! ## One reservation after another -/

/-- Which of some requests are granted that are made one after another. -/
def verdicts (g : Gateway S) : List (Reservation S) → List Bool
  | [] => []
  | r :: later => (g.after r.move).1.isOk :: verdicts (g.after r.move).2 later

/-- A session of a client is open. -/
def HasOpen (g : Gateway S) (id : SessionId) (client : S.Party) : Prop :=
  ∃ s, g.sessions.find? id = some s ∧ s.isOpen = true ∧ s.client = client

/-- A request that fails neither for want of a session nor of an answer. -/
structure Eligible (g : Gateway S) (client : S.Party) (chain : ChainSnapshot) (r : Reservation S) : Prop where
  session : g.HasOpen r.session client
  world : r.world.Reliable
  reading : g.readingIn r.world client = .ok chain

variable {g' : Gateway S} {r : Reservation S} {locked used : Nat}

theorem HasOpen.of_reserved (h : g.HasOpen id client) {session : SessionId} {other : S.Party}
    (hledger : g'.ledger = g.reservedLedger session other estimated locked used) : g'.HasOpen id client := by
  obtain ⟨s, hs, hopen, hclient⟩ := h
  have hsessions : g'.sessions = (g.ledger.finished other).sessions.update session fun s =>
      { s with lastActivity := used } := congrArg Ledger.sessions hledger
  have hfound := (g.ledger.finished other).sessions.find?_update session id
    (f := fun s => { s with lastActivity := used }) fun _ => rfl
  rw [← hsessions, Ledger.sessions_finished, show g.ledger.sessions.find? id = some s from hs] at hfound
  refine ⟨_, hfound, ?_, ?_⟩
  · dsimp only
    split <;> exact hopen
  · dsimp only
    split <;> exact hclient

/-- What has to do with the next request of a client is as it was, but for what is uncommitted. -/
structure Continues (g : Gateway S) (client : S.Party) (chain : ChainSnapshot) (raw : Atoms) (g' : Gateway S) :
    Prop where
  sound : g'.ledger.Sound
  running : g'.gate.isHalted client = false
  eligible : ∀ r, g.Eligible client chain r → g'.Eligible client chain r
  done : g'.ledger.pending client = none
  cap : (g'.ledger.snapshot client chain).cap = ((g.ledger.finished client).snapshot client chain).cap
  raw : (g'.ledger.snapshot client chain).raw = raw

theorem Continues.finished {raw : Atoms} (h : g.Continues client chain raw g') :
    g'.ledger.finished client = g'.ledger := Ledger.finished_of_idle h.done

/-- What an eligible request of a client who is not halted leaves. -/
theorem continues_after (hL : g.ledger.Sound) (hrun : g.gate.isHalted client = false)
    (hr : g.Eligible client chain r) :
    let credit := (g.ledger.finished client).snapshot client chain
    (chain.isActive = true ∧ r.estimated ≤ credit.available ∧ (g.after r.move).1.isOk = true ∧
        g.Continues client chain (credit.raw - r.estimated) (g.after r.move).2) ∨
      ¬ (chain.isActive = true ∧ r.estimated ≤ credit.available) ∧ (g.after r.move).1.isOk = false ∧
        g.Continues client chain credit.raw (g.after r.move).2 := by
  intro credit
  obtain ⟨⟨s, hs, hopen, rfl⟩, hw, hread⟩ := hr
  have hsound := sound_after r.move hL
  have reading : ∀ w, (g.after r.move).2.readingIn w s.client = g.readingIn w s.client := by
    intro w
    unfold readingIn reading
    rw [show ((g.after r.move).2.inWorld w).vendor = g.vendor from vendor_after r.move hL]
    rfl
  -- either way the ledger is the one in which the spend that broke off is finished, but for what was posted last
  have continues : ∀ {raw : Atoms} {M : Ledger S}, (g.after r.move).2.ledger = M →
      M.halted = (g.ledger.finished s.client).halted → M.pending s.client = (g.ledger.finished s.client).pending s.client →
      (M.snapshot s.client chain).cap = credit.cap → (M.snapshot s.client chain).raw = raw →
      (∀ id, g.HasOpen id s.client → (g.after r.move).2.HasOpen id s.client) →
      g.Continues s.client chain raw (g.after r.move).2 := by
    intro raw M hledger hhalted hpending hcap hraw hsessions
    subst hledger
    exact {
      sound := hsound
      running := by
        rw [isHalted_eq_false_iff, hhalted, Ledger.halted_finished]
        exact isHalted_eq_false_iff.1 hrun
      eligible := fun r' h => ⟨hsessions r'.session h.session, h.world, (reading _).trans h.reading⟩
      done := hpending.trans (Ledger.pending_finished g.ledger s.client)
      cap := hcap
      raw := hraw }
  rcases reservation_cases r.estimated hL hs hopen hrun hw hread with
    ⟨locked, used, hok, ⟨hactive, hle⟩, hledger⟩ | ⟨e, herror, hnot, hledger⟩
  · refine .inl ⟨hactive, hle, by rw [show (g.after r.move).1 = _ from hok]; rfl, ?_⟩
    have hraw := Ledger.raw_reserved r.session (UInt64.le_trans hle (CreditSnapshot.available_le_raw _)) locked
    exact continues hledger rfl rfl rfl hraw fun _ h => h.of_reserved hledger
  · refine .inr ⟨hnot, by rw [show (g.after r.move).1 = _ from herror]; rfl, ?_⟩
    have hsessions : (g.after r.move).2.sessions = g.sessions :=
      (congrArg Ledger.sessions hledger).trans (Ledger.sessions_finished g.ledger s.client)
    refine continues hledger rfl rfl rfl rfl fun _ h => ?_
    unfold HasOpen
    rw [hsessions]
    exact h

/-- Requests that are made one after another are granted greedily, if the client has a subscription. -/
theorem verdicts_eq (hL : g.ledger.Sound) (hrun : g.gate.isHalted client = false) (requests : List (Reservation S))
    (hall : ∀ r ∈ requests, g.Eligible client chain r) :
    let credit := (g.ledger.finished client).snapshot client chain
    g.verdicts requests =
      if chain.isActive then granted credit.cap credit.raw (requests.map (·.estimated))
      else requests.map fun _ => false := by
  induction requests generalizing g with
  | nil => simp [verdicts, granted]
  | cons r later ih =>
    obtain ⟨hr, hlater⟩ := List.forall_mem_cons.1 hall
    have rest : ∀ {raw : Atoms}, g.Continues client chain raw (g.after r.move).2 →
        (g.after r.move).2.verdicts later =
          if chain.isActive then
            granted ((g.ledger.finished client).snapshot client chain).cap raw (later.map (·.estimated))
          else later.map fun _ => false := by
      intro raw h
      have hih := ih h.sound h.running fun r' hr' => h.eligible r' (hlater r' hr')
      rw [h.finished] at hih
      dsimp only at hih
      rw [h.cap, h.raw] at hih
      exact hih
    rcases continues_after hL hrun hr with ⟨hactive, hle, hok, hcontinues⟩ | ⟨hnot, herror, hcontinues⟩
    · have hle : r.estimated ≤ min ((g.ledger.finished client).snapshot client chain).raw
          ((g.ledger.finished client).snapshot client chain).cap := hle
      rw [verdicts, hok, rest hcontinues, hactive]
      simp only [if_true, List.map_cons, granted]
      rw [if_pos hle]
    · rw [verdicts, herror, rest hcontinues]
      cases hactive : chain.isActive with
      | false => rfl
      | true =>
        have hnot : ¬ r.estimated ≤ min ((g.ledger.finished client).snapshot client chain).raw
            ((g.ledger.finished client).snapshot client chain).cap := fun h => hnot ⟨hactive, h⟩
        simp only [if_true, List.map_cons, granted]
        rw [if_neg hnot]

/-! ## The credit that is reported and the estimates that are reserved -/

/-- While stores and chain answer, an estimate is reserved for a client who is not halted exactly if the
subscription is active and the estimate is no more than is uncommitted and than the cap, once the client's spend
that broke off is finished.  Then the locked cost grows by the estimate, one locked query is made under a number
that is new, and the credit at the same reading of the chain is smaller by the estimate before it is capped.  In
every other case, whatever fails, no query is made and nothing is locked.  The credit that is read just before is
that bound if no spend broke off, and never above it; reading it changes nothing.  So requests made one after
another while the chain reads the same are granted greedily, and the sum of what is granted never exceeds what is
uncommitted at the beginning. -/
theorem reserves_exactly_available (vendor : S.Party) (config : GatewayConfig) (metrics : Metrics)
    (ms : List (Move S)) :
    let g := (fresh vendor config metrics).play ms
    let credit := fun client chain => (g.ledger.finished client).snapshot client chain
    (∀ (w : World S) (id : SessionId) (s : Session S) (estimated : Atoms) (chain : ChainSnapshot),
      g.sessions.find? id = some s → s.isOpen = true → g.gate.isHalted s.client = false → w.Reliable →
      g.readingIn w s.client = .ok chain →
      ((∃ reply, (g.after ⟨w, .acceptQuery id estimated⟩).1 = .ok reply) ↔
        chain.isActive = true ∧ estimated ≤ min (credit s.client chain).raw (credit s.client chain).cap)) ∧
    (∀ (w : World S) (id : SessionId) (estimated : Atoms) (reply : Reply S),
      (g.after ⟨w, .acceptQuery id estimated⟩).1 = .ok reply →
      let g' := (g.after ⟨w, .acceptQuery id estimated⟩).2
      ∃ s chain q, g.sessions.find? id = some s ∧ g.readingIn w s.client = .ok chain ∧
        chain.isActive = true ∧ estimated ≤ min (credit s.client chain).raw (credit s.client chain).cap ∧
        reply = .query q.id ∧ q.id.number = g.queries.next ∧ q.id ∉ g.queries.rows.map (·.id) ∧
        q.state = .locked ∧ q.session = id ∧ q.client = s.client ∧ q.estimated = estimated ∧
        g'.queries.rows = (g.ledger.finished s.client).queries.rows ++ [q] ∧
        g'.queries.rows.map (·.id) = g.queries.rows.map (·.id) ++ [q.id] ∧
        (∀ c, (g'.ledger.lockedOf c).toNat =
          (g.ledger.lockedOf c).toNat + if c = s.client then estimated.toNat else 0) ∧
        ∀ w' : World S, w'.Reliable → g'.readingIn w' s.client = .ok chain →
          (g'.availableIn w' s.client).1 =
            .ok (min ((credit s.client chain).raw - estimated) (credit s.client chain).cap)) ∧
    (∀ (w : World S) (id : SessionId) (estimated : Atoms) (e : Error),
      (g.after ⟨w, .acceptQuery id estimated⟩).1 = .error e →
      let g' := (g.after ⟨w, .acceptQuery id estimated⟩).2
      g'.queries.rows.map (·.id) = g.queries.rows.map (·.id) ∧
        ∀ c, g'.ledger.lockedOf c = g.ledger.lockedOf c) ∧
    (∀ (w : World S) (client : S.Party) (chain : ChainSnapshot), w.Reliable →
      g.readingIn w client = .ok chain →
      ∃ a, (g.availableIn w client).1 = .ok a ∧
        a ≤ min (credit client chain).raw (credit client chain).cap ∧
        (g.interrupted.get? client = none → a = min (credit client chain).raw (credit client chain).cap) ∧
        ∀ m, (g.availableIn w client).2.after m = g.after m) ∧
    ∀ (client : S.Party) (chain : ChainSnapshot) (requests : List (Reservation S)),
      g.gate.isHalted client = false → (∀ r ∈ requests, g.Eligible client chain r) →
      let estimates := requests.map (·.estimated)
      g.verdicts requests =
          (if chain.isActive then granted (credit client chain).cap (credit client chain).raw estimates
            else requests.map fun _ => false) ∧
        sumGranted estimates (g.verdicts requests) ≤ (credit client chain).raw.toNat := by
  intro g credit
  have hL : g.ledger.Sound := sound_play (blank_fresh (S := S) vendor config metrics) ms
  refine ⟨?decided, ?reserved, ?withheld, ?reported, ?sequence⟩
  case decided =>
    intro w id s estimated chain hs hopen hrun hw hread
    rcases reservation_cases estimated hL hs hopen hrun hw hread with
      ⟨_, _, hok, hyes, -⟩ | ⟨e, herror, hno, -⟩
    · exact ⟨fun _ => hyes, fun _ => ⟨_, hok⟩⟩
    · refine ⟨fun ⟨reply, hok⟩ => ?_, fun h => absurd h hno⟩
      cases herror.symm.trans hok
  case reserved =>
    intro w id estimated reply hok g'
    obtain ⟨s, chain, locked, used, hs, -, hread, hactive, hle, rfl, hledger⟩ := reserved_after_ok hL hok
    have hraw : estimated ≤ (credit s.client chain).raw :=
      UInt64.le_trans hle (CreditSnapshot.available_le_raw _)
    let q := (g.ledger.finished s.client).locking id s.client estimated locked
    have hnext : q.id = ⟨g.queries.next⟩ := congrArg QueryId.mk (Ledger.next_finished g.ledger s.client)
    have hrows : g'.queries.rows = (g.ledger.finished s.client).queries.rows ++ [q] :=
      congrArg (fun M : Ledger S => M.queries.rows) hledger
    have hunreserved := Ledger.unreserved_finished g.ledger s.client
    refine ⟨s, chain, q, hs, hread, hactive, hle, congrArg Reply.query hnext.symm,
      congrArg QueryId.number hnext, ?_, rfl, rfl, rfl, rfl, hrows, ?_, fun c => ?_, fun w' hw' hread' => ?_⟩
    · rw [hnext]
      exact hL.numbered.next_not_mem
    · rw [hrows, List.map_append, hunreserved.ids]
      rfl
    · have hlocked := Ledger.lockedOf_reserved id hraw locked c
      rw [hunreserved.lockedOf] at hlocked
      rw [hledger]
      exact hlocked
    · rw [availableIn_ok hw' hread', hledger]
      exact congrArg (fun raw => Except.ok (min raw (credit s.client chain).cap))
        (Ledger.raw_reserved id hraw locked)
  case withheld =>
    intro w id estimated e he g'
    have h := unreserved_after hL he
    exact ⟨h.ids, h.lockedOf⟩
  case reported =>
    intro w client chain hw hread
    refine ⟨_, availableIn_ok hw hread, hL.available_le_finished client chain, fun hidle => ?_,
      after_availableIn g w client⟩
    have hidle : g.ledger.pending client = none := hidle
    exact congrArg (fun M : Ledger S => (M.snapshot client chain).available)
      (Ledger.finished_of_idle hidle).symm
  case sequence =>
    intro client chain requests hrun hall estimates
    have hverdicts := verdicts_eq hL hrun requests hall
    refine ⟨hverdicts, ?_⟩
    rw [hverdicts]
    split
    · exact sumGranted_le _ _ _
    · rw [sumGranted_refused]
      exact Nat.zero_le _

/-- A query of 120 atoms is being settled when the spend of the first voucher breaks off after the voucher is
marked.  The client is told that nothing is available; but finishing the spend takes the hundred atoms off, and
then the second voucher, of forty atoms, leaves twenty. -/
theorem reserves_exactly_available_sample :
    let topUp : Move Scheme.plain := ⟨Sample.world, .topUp ⟨1⟩ ⟨1, 9, 2, 40, true⟩⟩
    let breaking : Move Scheme.plain := ⟨Sample.unmarkedFailing .subtract, .settleQuery ⟨1⟩ ⟨432000, 0⟩⟩
    let g := Sample.start.play (breaking :: topUp :: Sample.reserving 100)
    let request := fun estimated : Atoms => (⟨Sample.world, ⟨1⟩, estimated⟩ : Reservation Scheme.plain)
    let requests := [request 15, request 10, request 5]
    (g.interrupted.get? 1).isSome = true ∧ (g.availableIn Sample.world 1).1 = .ok 0 ∧
      (∃ reply, (g.after (request 20).move).1 = .ok reply) ∧
      (∀ reply, (g.after (request 21).move).1 ≠ .ok reply) ∧
      (∀ r ∈ requests, r.world.Reliable) ∧ g.verdicts requests = [true, false, true] ∧
      sumGranted [15, 10, 5] (g.verdicts requests) ≤ 20 := by
  intro topUp breaking g request requests
  let chain : ChainSnapshot := { collateral := 1000, subscribedVendorCount := 1, subscribed := true }
  have hworld : Sample.world.Reliable := World.reliable_answering _
  have hread : g.readingIn Sample.world 1 = .ok chain := rfl
  have hrun : g.gate.isHalted 1 = false := by decide +kernel
  have hopen : (g.sessions.find? ⟨1⟩).any (fun s => s.isOpen && decide (s.client = 1)) = true := by
    decide +kernel
  obtain ⟨s, hs, hopen⟩ := (Option.any_eq_true _ _).1 hopen
  simp only [Bool.and_eq_true, decide_eq_true_eq] at hopen
  obtain ⟨hopen, hclient⟩ := hopen
  have hraw : ((g.ledger.finished 1).snapshot 1 chain).raw = 20 := by decide +kernel
  have hcap : ((g.ledger.finished 1).snapshot 1 chain).cap = 1000 := by decide +kernel
  have heligible : ∀ estimated, g.Eligible 1 chain (request estimated) := fun _ =>
    ⟨⟨s, hs, hopen, hclient⟩, hworld, hread⟩
  obtain ⟨hdecided, -, -, -, hsequence⟩ :=
    reserves_exactly_available (S := Scheme.plain) 9 Sample.config {}
      (breaking :: topUp :: Sample.reserving 100)
  have hdecides : ∀ estimated, (∃ reply, (g.after (request estimated).move).1 = .ok reply) ↔
      chain.isActive = true ∧ estimated ≤ min ((g.ledger.finished s.client).snapshot s.client chain).raw
        ((g.ledger.finished s.client).snapshot s.client chain).cap := fun estimated =>
    hdecided Sample.world ⟨1⟩ s estimated chain hs hopen (by rw [hclient]; exact hrun) hworld
      (by rw [hclient]; exact hread)
  rw [hclient, hraw, hcap] at hdecides
  obtain ⟨hverdicts, hsum⟩ := hsequence 1 chain requests hrun
    (List.forall_mem_cons.2 ⟨heligible 15, List.forall_mem_cons.2 ⟨heligible 10,
      List.forall_mem_cons.2 ⟨heligible 5, nofun⟩⟩⟩)
  have hgranted : g.verdicts requests = granted ((g.ledger.finished 1).snapshot 1 chain).cap
      ((g.ledger.finished 1).snapshot 1 chain).raw [15, 10, 5] := hverdicts.trans (if_pos rfl)
  have hsum : sumGranted [15, 10, 5] (g.verdicts requests) ≤
      ((g.ledger.finished 1).snapshot 1 chain).raw.toNat := hsum
  rw [hraw] at hsum
  rw [hcap, hraw] at hgranted
  have hreported : (g.ledger.snapshot 1 chain).available = 0 := by decide +kernel
  refine ⟨by decide +kernel, hreported ▸ availableIn_ok hworld hread, (hdecides 20).2 (by decide +kernel),
    fun reply hreply => ?_, ?_, ?_, hsum⟩
  · exact absurd ((hdecides 21).1 ⟨reply, hreply⟩) (by decide +kernel)
  · exact List.forall_mem_cons.2 ⟨hworld, List.forall_mem_cons.2 ⟨hworld, List.forall_mem_cons.2 ⟨hworld, nofun⟩⟩⟩
  · rw [hgranted]
    decide +kernel

end Gateway
end VoucherGateway
