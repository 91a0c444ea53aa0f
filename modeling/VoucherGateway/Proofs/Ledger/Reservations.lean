import VoucherGateway.Proofs.Ledger.Finishing
import VoucherGateway.Proofs.Ledger.Vouchers

/-!
# Reservations in the ledger — what locking an estimate writes

A spend that broke off is finished first.  Then the estimate is locked if it is within the credit, so the
locked cost cannot overflow; a query whose estimate cannot be locked uses up its number and nothing else.
What is not reserved is withheld for one of a few reasons, and then nothing is locked (`ends_reserve`).
-/

namespace VoucherGateway

variable {S : Scheme}

/-- The entries by which a query of a client is reserved or turned down. -/
def Entry.Reserves (client : S.Party) (session : SessionId) (estimated : Atoms) : Entry S → Prop
  | .numbered => True
  | .reserved q => q.client = client ∧ q.session = session ∧ q.estimated = estimated
  | .refused e => e = .queryRejected
  | .renewed id head _ => id = session ∧ head = none
  | e => e.Finishes client

theorem Entry.Finishes.reserves {client : S.Party} {session : SessionId} {estimated : Atoms} {e : Entry S}
    (h : e.Finishes client) : e.Reserves client session estimated := by
  cases e with
  | marked _ _ => exact h
  | completed _ _ => exact h
  | _ => cases h

theorem CreditSnapshot.available_le_raw (s : CreditSnapshot) : s.available ≤ s.raw :=
  (Std.le_min_iff.1 (UInt64.le_refl s.available)).1

namespace Ledger

/-- The query that is reserved next for an estimate. -/
def locking (L : Ledger S) (session : SessionId) (client : S.Party) (estimated : Atoms) (time : Nat) : Query S where
  id := ⟨L.queries.next⟩
  session := session
  client := client
  estimated := estimated
  state := .locked
  lockedAt := time

/-- An estimate is turned down at a reading of the chain: the client has no subscription or not the credit, or a
store did not answer. -/
inductive TurnsDown (L : Ledger S) (client : S.Party) (estimated : Atoms) (chain : ChainSnapshot)
    (answering : Prop) : Error → Ledger S → Prop
  | inactive (inactive : chain.isActive = false) :
    TurnsDown L client estimated chain answering (.rejected .notSubscribed) (L.post (.refused .queryRejected))
  | exceeding (exceeds : (L.snapshot client chain).available < estimated) :
    TurnsDown L client estimated chain answering
      (.insufficientCredit estimated (L.snapshot client chain).available) (L.post (.refused .queryRejected))
  | unanswered {e : Error} {M : Ledger S} (outage : e.IsOutage) (failed : ¬ answering)
    (trail : Trail (fun e => e = .numbered) L M) : TurnsDown L client estimated chain answering e M

/-- An estimate is withheld: a spend that broke off cannot be finished, the chain does not answer, or the estimate
is turned down. -/
inductive Withholds (L : Ledger S) (client : S.Party) (estimated : Atoms) (reading : Except String ChainSnapshot)
    (answering : Prop) : Error → Ledger S → Prop
  | unfinished {e : Error} {M : Ledger S} (outage : e.IsOutage) (failed : ¬ answering)
    (trail : Trail (Entry.Finishes client) L M) : Withholds L client estimated reading answering e M
  | unread {detail : String} (failed : reading = .error detail) :
    Withholds L client estimated reading answering (.chainUnavailable detail) (L.finished client)
  | turnedDown {chain : ChainSnapshot} {e : Error} {M : Ledger S} (read : reading = .ok chain)
    (declines : (L.finished client).TurnsDown client estimated chain answering e M) :
    Withholds L client estimated reading answering e M

/-- An estimate is reserved, at a reading of the chain at which it is within the credit. -/
def Grants (L : Ledger S) (session : SessionId) (client : S.Party) (estimated : Atoms)
    (reading : Except String ChainSnapshot) (id : QueryId) (M : Ledger S) : Prop :=
  id.number = L.queries.next ∧
    (∃ chain, reading = .ok chain ∧ chain.isActive = true ∧
      estimated ≤ ((L.finished client).snapshot client chain).available) ∧
    ∃ time, M = (L.finished client).post
      (.reserved ((L.finished client).locking session client estimated time))

variable {L M : Ledger S} {client : S.Party} {session : SessionId} {estimated : Atoms} {chain : ChainSnapshot}
variable {reading : Except String ChainSnapshot} {answering answering' : Prop} {e : Error}

theorem allows_reserved (hle : estimated ≤ (L.snapshot client chain).available) (time : Nat) :
    L.Allows (.reserved (L.locking session client estimated time)) :=
  ⟨rfl, rfl, rfl, rfl, rfl, rfl, rfl, rfl, UInt64.le_trans hle (CreditSnapshot.available_le_raw _)⟩

theorem lockedOf_reserved (session : SessionId) (hle : estimated ≤ (L.snapshot client chain).raw) (time : Nat)
    (c : S.Party) :
    ((L.post (.reserved (L.locking session client estimated time))).lockedOf c).toNat =
      (L.lockedOf c).toNat + if c = client then estimated.toNat else 0 := by
  rw [lockedOf_post]
  change (if c = client then L.lockedOf c + estimated else L.lockedOf c).toNat = _
  by_cases hc : c = client
  · subst hc
    rw [if_pos rfl, if_pos rfl, Atoms.toNat_add_of_fits (fits_of_le_raw hle)]
  · rw [if_neg hc, if_neg hc, Nat.add_zero]

/-- What a reservation changes of a client's credit is what is locked. -/
theorem snapshot_reserved (L : Ledger S) (session : SessionId) (client : S.Party) (estimated : Atoms) (time : Nat)
    (chain : ChainSnapshot) :
    (L.post (.reserved (L.locking session client estimated time))).snapshot client chain =
      { L.snapshot client chain with
        state := { L.credit client with locked := L.lockedOf client + estimated } } := by
  have hlocked : (L.post (.reserved (L.locking session client estimated time))).lockedOf client =
      L.lockedOf client + estimated := by
    rw [lockedOf_post]
    exact if_pos rfl
  unfold snapshot credit
  rw [hlocked]
  rfl

/-- What is locked is no longer uncommitted. -/
theorem raw_reserved (session : SessionId) (hle : estimated ≤ (L.snapshot client chain).raw) (time : Nat) :
    ((L.post (.reserved (L.locking session client estimated time))).snapshot client chain).raw =
      (L.snapshot client chain).raw - estimated := by
  have hsum := Atoms.toNat_add_of_fits (fits_of_le_raw hle)
  rw [snapshot_reserved, ← UInt64.toNat_inj, Atoms.toNat_sub_of_le hle]
  have hle := UInt64.le_iff_toNat_le.1 hle
  simp only [CreditSnapshot.raw, CreditState.toNat_raw, snapshot, credit, hsum] at hle ⊢
  -- beyond the largest amount nothing is uncommitted, and only nothing can be locked
  omega

theorem TurnsDown.of_imp (h : L.TurnsDown client estimated chain answering e M) (himp : answering' → answering) :
    L.TurnsDown client estimated chain answering' e M := by
  cases h with
  | inactive inactive => exact .inactive inactive
  | exceeding exceeds => exact .exceeding exceeds
  | unanswered outage failed trail => exact .unanswered outage (fun h => failed (himp h)) trail

theorem Withholds.of_imp (h : L.Withholds client estimated reading answering e M)
    (himp : answering' → answering) : L.Withholds client estimated reading answering' e M := by
  cases h with
  | unfinished outage failed trail => exact .unfinished outage (fun h => failed (himp h)) trail
  | unread failed => exact .unread failed
  | turnedDown read declines => exact .turnedDown read (declines.of_imp himp)

theorem TurnsDown.not_fatal (h : L.TurnsDown client estimated chain answering e M) : e.isFatal = false := by
  cases h with
  | inactive _ => rfl
  | exceeding _ => rfl
  | unanswered outage _ _ => exact outage.not_fatal

theorem Withholds.not_fatal (h : L.Withholds client estimated reading answering e M) : e.isFatal = false := by
  cases h with
  | unfinished outage _ _ => exact outage.not_fatal
  | unread _ => rfl
  | turnedDown _ declines => exact declines.not_fatal

theorem TurnsDown.trail (h : L.TurnsDown client estimated chain answering e M) :
    Trail (fun e => e = .numbered ∨ e = .refused .queryRejected) L M := by
  cases h with
  | inactive _ => exact .post (.inr rfl) trivial
  | exceeding _ => exact .post (.inr rfl) trivial
  | unanswered _ _ trail => exact trail.widen fun _ => .inl

theorem Withholds.trail (h : L.Withholds client estimated reading answering e M) :
    Trail (Entry.Reserves client session estimated) L M := by
  have finished : Trail (Entry.Reserves client session estimated) L (L.finished client) :=
    (finishing L client).widen fun _ h => h.reserves
  cases h with
  | unfinished _ _ trail => exact trail.widen fun _ h => h.reserves
  | unread _ => exact finished
  | turnedDown _ declines =>
    refine finished.trans (declines.trail.widen ?_)
    rintro _ (rfl | rfl)
    · trivial
    · rfl

/-- Whatever is the reason, nothing is locked and no query is made. -/
theorem Withholds.unreserved (h : L.Withholds client estimated reading answering e M) : L.Unreserved M := by
  cases h with
  | unfinished _ _ trail => exact trail.unreserved fun _ _ => unreserved_of_finishes
  | unread _ => exact unreserved_finished L client
  | turnedDown _ declines =>
    refine (unreserved_finished L client).trans (declines.trail.unreserved ?_)
    rintro N _ (rfl | rfl)
    · exact ⟨rfl, rfl⟩
    · exact ⟨rfl, rfl⟩

/-- While stores and chain answer, an estimate is withheld only if there is no subscription or not the credit. -/
theorem Withholds.unaffordable (h : L.Withholds client estimated reading answering e M) (hanswering : answering)
    (hread : reading = .ok chain) :
    ¬ (chain.isActive = true ∧ estimated ≤ ((L.finished client).snapshot client chain).available) ∧
      M = (L.finished client).post (.refused .queryRejected) := by
  cases h with
  | unfinished _ failed _ => exact absurd hanswering failed
  | unread failed => cases hread.symm.trans failed
  | turnedDown read declines =>
    obtain rfl := Except.ok.inj (hread.symm.trans read)
    cases declines with
    | inactive inactive => exact ⟨fun h => absurd (inactive.symm.trans h.1) nofun, rfl⟩
    | exceeding exceeds => exact ⟨fun h => UInt64.not_le.2 exceeds h.2, rfl⟩
    | unanswered _ failed _ => exact absurd hanswering failed

theorem Grants.trail {id : QueryId} (h : L.Grants session client estimated reading id M) :
    Trail (Entry.Reserves client session estimated) L M := by
  obtain ⟨-, ⟨chain, -, -, hle⟩, time, rfl⟩ := h
  refine ((finishing L client).widen fun _ h => h.reserves).tail
    ⟨.reserved _, ⟨rfl, rfl, rfl⟩, allows_reserved hle time, rfl⟩

end Ledger

namespace Gateway

variable {g : Gateway S} {L : Ledger S} {allowed : Entry S → Prop} {client vendor : S.Party}

theorem ends_creditState (hg : g.ledger = L) (hv : vendor = L.vendor) :
    Ends (fun a g' => g'.ledger = L ∧ a = L.credit client) (fun e g' => g'.ledger = L ∧ e.IsOutage)
      ((creditState vendor client).run g) := by
  unfold creditState
  refine Action.ends_bind (ends_unspent client hg hv) ?_
  rintro vs g₁ ⟨hg₁, rfl⟩
  refine Action.ends_bind (ends_readUnmarked client hg₁) ?_
  rintro unmarked g₂ ⟨hg₂, rfl⟩
  refine Action.ends_bind (ends_readLocked client hg₂) ?_
  rintro locked g₃ ⟨hg₃, rfl⟩
  exact ⟨hg₃, rfl⟩

theorem ends_creditAt (client : S.Party) (hg : g.ledger = L) (hv : vendor = L.vendor) (chain : ChainSnapshot) :
    Ends (fun a g' => g'.ledger = L ∧ a = L.snapshot client chain) (fun e g' => g'.ledger = L ∧ e.IsOutage)
      ((creditAt vendor client chain).run g) := by
  unfold creditAt
  refine Action.ends_bind (ends_creditState hg hv) ?_
  rintro state g₁ ⟨hg₁, rfl⟩
  subst hg₁
  exact ⟨rfl, rfl⟩

theorem steady_creditAt (vendor client : S.Party) (chain : ChainSnapshot) :
    Action.Steady (Reliable (S := S)) (creditAt vendor client chain) :=
  (steady_creditState client vendor).bind fun _ => Action.Confined.bind (.view _) fun _ => .pure _

theorem ends_headVoucher (hg : g.ledger = L) (hv : vendor = L.vendor) :
    Ends (fun a g' => g'.ledger = L ∧ a.map (·.voucher) = (L.chain client).unspent.head?)
      (fun e g' => g'.ledger = L ∧ e.IsOutage) ((headVoucher vendor client).run g) := by
  unfold headVoucher
  refine Action.ends_bind (ends_unspent client hg hv) ?_
  rintro vs g₁ ⟨hg₁, rfl⟩
  cases (L.chain client).unspent with
  | nil => exact ⟨hg₁, rfl⟩
  | cons v rest =>
    refine Action.ends_bind (ends_readUnmarked client hg₁) ?_
    rintro unmarked g₂ ⟨hg₂, -⟩
    exact ⟨hg₂, rfl⟩

/-- An estimate within the credit is locked, under the next number. -/
theorem ends_lockEstimate (session : SessionId) (client : S.Party) (estimated : Atoms) (chain : ChainSnapshot)
    (hg : g.ledger = L) :
    Ends
      (fun id g' => id.number = L.queries.next ∧ chain.isActive = true ∧
        estimated ≤ (L.snapshot client chain).available ∧
        ∃ time, g'.ledger = L.post (.reserved (L.locking session client estimated time)))
      (fun e g' => L.TurnsDown client estimated chain g.Reliable e g'.ledger)
      ((lockEstimate session client estimated chain).run g) := by
  unfold lockEstimate
  cases hactive : chain.isActive with
  | false =>
    subst hg
    have hdown : g.ledger.TurnsDown client estimated chain g.Reliable (.rejected .notSubscribed)
        (Gateway.ledger { g with metrics := g.metrics.count .queryRejected }) := by
      rw [ledger_count]
      exact .inactive hactive
    exact hdown
  | true =>
    simp only [Bool.not_true, Bool.false_eq_true, if_false]
    rw [Action.run_get_bind]
    have hcredit := (ends_creditAt client hg (congrArg Ledger.vendor hg) chain).and
      ((steady_creditAt g.vendor client chain).ends g)
    refine Action.ends_bind (hcredit.mono_error ?_) ?_
    · rintro e g₁ ⟨⟨rfl, hout⟩, hr⟩
      exact .unanswered hout (fun h => hr h hout) .refl
    rintro credit g₁ ⟨⟨rfl, rfl⟩, hr₁⟩
    split
    · next hlt =>
      have hdown : g₁.ledger.TurnsDown client estimated chain g.Reliable
          (.insufficientCredit estimated (g₁.ledger.snapshot client chain).available)
          (Gateway.ledger { g₁ with metrics := g₁.metrics.count .queryRejected }) := by
        rw [ledger_count]
        exact .exceeding hlt
      exact hdown
    · next hle =>
      have hle := UInt64.not_lt.1 hle
      rw [Action.run_get_bind]
      have hnum : Gateway.ledger { g₁ with queries := g₁.queries.allocate.2 } = g₁.ledger.post .numbered := rfl
      -- what is available is part of the credit, so the sum of all locked estimates still fits
      have hfits := Ledger.fits_of_le_raw (UInt64.le_trans hle (CreditSnapshot.available_le_raw _))
      have hlock := (ends_addLocked client estimated hnum hfits).and
        ((steady_onBalances (CostStore.steady_add .balances client estimated)).ends _)
      simp only [QueryTable.allocate, Action.run_set_bind]
      refine Action.ends_bind (hlock.mono_error ?_) ?_
      · -- the number is used up even if the balance store does not answer
        rintro e g₂ ⟨⟨hg₂, hout⟩, hr₂⟩
        rw [hg₂]
        exact .unanswered hout (fun h => hr₂ (hr₁ h) hout) (.post rfl trivial)
      · rintro locked g₂ ⟨⟨hg₂, rfl⟩, -⟩
        refine ⟨rfl, trivial, hle, g₁.now, ?_⟩
        simp only [ledger, Ledger.mk.injEq] at hg₂
        simp [ledger, Ledger.post, Ledger.locking, QueryState.isFinal, Metrics.counters_count, hg₂, Ledger.lockedOf]

/-! ## A reservation as a whole -/

theorem ends_resumeSpend (client : S.Party) (hL : L.Sound) (hg : g.ledger = L) :
    Ends (fun _ g' => g'.ledger = L.finished client)
      (fun e g' => Ledger.Trail (Entry.Finishes client) L g'.ledger ∧ e.IsOutage) ((resumeSpend client).run g) :=
  Ends.mono (writes_resumeSpend (fun _ he => he) hL hg) (fun _ _ h => Ledger.finished_of_trail h.1 h.2.1)
    fun _ _ h => h

/-- A step that has nothing to do with the chain. -/
abbrev Offchain {α : Type} (r : ChainReader S) (act : Step S α) : Prop :=
  Action.Confined (fun g : Gateway S => g.chain = r) (fun _ => True) act

theorem offchain_onVouchers {α : Type} {r : ChainReader S} (act : VoucherStore.Act S α) :
    Offchain r (onVouchers act) :=
  (Action.Confined.trivial act).within (fun _ _ => True.intro) fun _ _ _ hg => hg

theorem offchain_completeSpend {r : ChainReader S} (p : PendingSpend S) : Offchain r (completeSpend client p) := by
  have hsubtract : Offchain r (onUnmarked fun book => CostStore.subtract (S := S) book client p.voucher.atoms) :=
    (Action.Confined.trivial _).within (fun _ _ => True.intro) fun _ _ _ hg => hg
  unfold completeSpend
  refine hsubtract.bind fun left => .bind (.update fun _ hg => hg) fun _ => ?_
  have queue : Offchain r (do
      let g ← get
      set { g with settlement := (g.settlement.push p.voucher).2 }
      if (g.settlement.push p.voucher).1 then pure left
      else throw (.violation (.nonceSequence (S.partyText client)
        ("spent voucher " ++ p.voucher.id.text ++ " is not newer than the settlement queue"))) : Step S Atoms) :=
    .get_bind fun _ hg => .bind (.set hg) fun _ => .ite (.pure _) (.throw True.intro)
  cases p.query with
  | none => exact queue
  | some id => exact .bind (.update fun _ hg => hg) fun _ => queue

/-- Finishing a spend has nothing to do with the chain. -/
theorem offchain_resumeSpend {r : ChainReader S} (client : S.Party) : Offchain r (resumeSpend client) := by
  have done : ∀ p : PendingSpend S, Offchain r (do
      let left ← completeSpend client p
      pure (some left) : Step S (Option Atoms)) := fun p =>
    (offchain_completeSpend p).bind fun _ => .pure _
  refine .get_bind fun g _ => ?_
  cases g.interrupted.get? client with
  | none => exact .pure _
  | some p =>
    dsimp only
    cases p.marked with
    | true => exact done p
    | false =>
      have ensure : Offchain r (ensureMarked p.voucher.id) :=
        (offchain_onVouchers _).bind fun _ => .ite (.pure _) (offchain_onVouchers _)
      exact ensure.bind fun _ => .bind (.update fun _ hg => hg) fun _ => done p

/-- How an attempt to reserve an estimate ends. -/
theorem ends_reserve (session : SessionId) (client : S.Party) (estimated : Atoms) (hL : L.Sound)
    (hg : g.ledger = L) :
    Ends (fun id g' => L.Grants session client estimated (g.reading client) id g'.ledger)
      (fun e g' => L.Withholds client estimated (g.reading client) g.Reliable e g'.ledger)
      ((reserve session client estimated).run g) := by
  have hresume := ((ends_resumeSpend client hL hg).and ((steady_resumeSpend client).ends g)).and
    (offchain_resumeSpend client g rfl)
  unfold reserve
  refine Op.ends_bind (hresume.mono_error ?_) ?_
  · rintro e g₁ ⟨⟨⟨ht, hout⟩, hr⟩, -⟩
    exact .unfinished hout (fun h => hr h hout) ht
  rintro _ g₁ ⟨⟨hg₁, hr₁⟩, hchain⟩
  rw [Op.run_get_bind, Op.run_bind, Op.run_readChain]
  have hvendor : g₁.vendor = g.vendor := by
    rw [show g.vendor = L.vendor from congrArg Ledger.vendor hg, ← (Ledger.finishing L client).vendor]
    exact congrArg Ledger.vendor hg₁
  have hread : ((ChainReader.read client g₁.vendor).run ChainReader.elapse g₁.chain).1 = g.reading client := by
    rw [hvendor, hchain]
    rfl
  dsimp only
  rw [hread]
  cases hreading : g.reading client with
  | error detail =>
    have hunread : L.Withholds client estimated (.error detail) g.Reliable (.chainUnavailable detail) g₁.ledger :=
      hg₁ ▸ .unread rfl
    exact hunread
  | ok chain =>
    -- reading the chain changes the reader alone
    have hlock := ends_lockEstimate session client estimated chain
      (g := { g₁ with chain := ((ChainReader.read client g₁.vendor).run ChainReader.elapse g₁.chain).2 }) hg₁
    refine hlock.mono ?_ fun e g₂ h => .turnedDown rfl (h.of_imp hr₁)
    rintro id g₂ ⟨hid, hactive, hle, hpost⟩
    exact ⟨hid.trans (Ledger.next_finished L client), ⟨chain, rfl, hactive, hle⟩, hpost⟩

/-- A reservation in a session ends before it begins, or as it does for the client of the session. -/
theorem ends_acceptQuery (session : SessionId) (estimated : Atoms) (hL : L.Sound) (hg : g.ledger = L) :
    Ends
      (fun id g' => ∃ s M time, L.sessions.find? session = some s ∧ s.isOpen = true ∧
        L.halted.get? s.client = none ∧ L.Grants session s.client estimated (g.reading s.client) id M ∧
        g'.ledger = M.post (.renewed session none time))
      (fun e g' => (∃ s, L.sessions.find? session = some s ∧
          L.Withholds s.client estimated (g.reading s.client) g.Reliable e g'.ledger) ∨
        g'.ledger = L ∧ (e.isFatal = false ∨ ∃ detail, e = .clientHalted detail) ∧
          ∀ s, L.sessions.find? session = some s → s.isOpen = true → L.halted.get? s.client ≠ none)
      ((acceptQuery session estimated).run g) := by
  subst hg
  unfold acceptQuery
  rw [Op.run_bind, Op.run_perform, run_findOpenSession]
  cases hs : g.sessions.find? session with
  | none =>
    have hs : g.ledger.sessions.find? session = none := hs
    exact .inr ⟨rfl, .inl rfl, fun s hs' => by cases hs.symm.trans hs'⟩
  | some s =>
    have hs' : g.ledger.sessions.find? session = some s := hs
    dsimp only
    cases hopen : s.isOpen with
    | false =>
      refine .inr ⟨rfl, .inl rfl, fun s' hs'' hopen' => ?_⟩
      obtain rfl := Option.some.inj (hs'.symm.trans hs'')
      exact absurd (hopen.symm.trans hopen') nofun
    | true =>
      simp only [if_true]
      refine Op.ends_bind ((undisturbed_enter s.client rfl).mono_error ?_) ?_
      · rintro e g₁ ⟨hg₁, hhalt, hdetail⟩
        refine .inr ⟨hg₁, .inr hdetail, fun s' hs'' _ => ?_⟩
        obtain rfl := Option.some.inj (hs'.symm.trans hs'')
        exact hhalt
      rintro _ g₁ ⟨h₁, hrun⟩
      -- nobody has closed the session meanwhile
      have hs₁ : g₁.sessions.find? session = some s := by
        rw [show g₁.sessions = g.sessions from congrArg Ledger.sessions h₁.ledger]
        exact hs
      have hagain : (findOpenSession session).run g₁ = (.ok s, g₁) := by
        rw [run_findOpenSession, hs₁]
        simp [hopen]
      rw [Op.run_bind, Op.run_perform, hagain]
      have hreserve := Op.ends_guarding s.client (ends_reserve session s.client estimated hL h₁.ledger)
        fun _ _ h => h.not_fatal
      rw [h₁.reading] at hreserve
      refine Op.ends_bind (hreserve.mono_error fun _ _ h => .inl ⟨s, hs', h.of_imp h₁.reliable⟩) ?_
      rintro id g₂ hgrants
      exact ⟨s, g₂.ledger, g₂.now, hs', hopen, hrun, hgrants, rfl⟩

theorem writes_acceptQuery {session : SessionId} {estimated : Atoms}
    (hal : ∀ client e, Entry.Reserves client session estimated e → allowed e) (hL : L.Sound)
    (hg : g.ledger = L) :
    Writes allowed L (fun _ _ => True)
      (fun e _ => e.isFatal = false ∨ ∃ detail, e = .clientHalted detail)
      ((acceptQuery session estimated).run g) := by
  refine (ends_acceptQuery session estimated hL hg).mono ?_ ?_
  · rintro id g' ⟨s, M, time, -, -, -, hgrants, hg'⟩
    exact ⟨(hgrants.trail.widen (hal s.client)).tail ⟨_, hal s.client (.renewed session none time) ⟨rfl, rfl⟩,
      trivial, hg'⟩, trivial⟩
  · rintro e g' (⟨s, -, hwithholds⟩ | ⟨rfl, hharmless, -⟩)
    · exact ⟨hwithholds.trail.widen (hal s.client), .inl hwithholds.not_fatal⟩
    · exact ⟨.refl, hharmless⟩

end Gateway
end VoucherGateway
