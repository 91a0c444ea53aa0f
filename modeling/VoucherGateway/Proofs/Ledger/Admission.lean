import VoucherGateway.Proofs.Ledger.Calm
import VoucherGateway.Proofs.Ledger.Steady

/-!
# Admission in the ledger — which vouchers are accepted

Six things are asked of a voucher, in a fixed order, and it is turned down for the first of them that it does
not meet (`Ledger.refusal?`).  Whatever meets them all is the next voucher of its client: it is not marked
spent, and the store takes it.  So the checks of the store itself never decide anything.

Main statement: an attempt to have a voucher accepted is declined, and then only a rejection leaves a trace,
or the voucher is recorded, and no error can come after that (`ends_acceptVoucher`).
-/

namespace VoucherGateway

variable {S : Scheme} {α : Type}

/-! ## What is asked of a voucher -/

/-- The newest nonce of a client, or the one before the first. -/
def Ledger.newest (L : Ledger S) (client : S.Party) : UInt64 := (L.chain client).latest?.getD L.genesis

/-- What is asked of a voucher at a reading of the chain, in order, and how it is turned down if it falls
short. -/
def Ledger.requirements (L : Ledger S) (v : Voucher S) (chain : ChainSnapshot) : List (Bool × Rejection) :=
  let newest := L.newest v.client
  let collateral := Voucher.collateralFor L.config.credit chain
  [(v.isAuthentic, .badSignature),
    (decide (0 < v.atoms), .zeroAtoms),
    (decide (v.vendor = L.vendor), .wrongVendor),
    (decide (v.nonce.toNat = newest.toNat + 1),
      if v.nonce ≤ newest then .nonceReplay newest v.nonce else .nonceGap (Atoms.plus newest 1) v.nonce),
    (chain.isActive, .notSubscribed),
    (decide (v.atoms ≤ collateral), .insufficientCollateral collateral v.atoms)]

/-- How a voucher is turned down: for the first requirement that it does not meet. -/
def Ledger.refusal? (L : Ledger S) (v : Voucher S) (chain : ChainSnapshot) : Option Rejection :=
  ((L.requirements v chain).find? fun r => !r.1).map (·.2)

/-- The verdict on a voucher that is turned down for a reason, or for none. -/
def Verdict.of : Option Rejection → Verdict
  | none => .accepted
  | some reason => .rejected reason

theorem Ledger.refusal?_eq_none_iff {L : Ledger S} {v : Voucher S} {chain : ChainSnapshot} :
    L.refusal? v chain = none ↔
      v.isAuthentic = true ∧ 0 < v.atoms ∧ v.vendor = L.vendor ∧
        v.nonce.toNat = (L.newest v.client).toNat + 1 ∧ chain.isActive = true ∧
        v.atoms ≤ Voucher.collateralFor L.config.credit chain := by
  simp [refusal?, requirements]

/-- A voucher is not turned down for being spent, and for a nonce that was used before only if the nonce is not
newer than the newest one. -/
theorem Ledger.refusal?_by_itself {L : Ledger S} {v : Voucher S} {chain : ChainSnapshot} {reason : Rejection}
    (h : L.refusal? v chain = some reason) :
    (∀ nonce, reason ≠ .alreadySpent nonce) ∧ ∀ latest got, reason = .nonceReplay latest got → got ≤ latest := by
  obtain ⟨r, hfind, rfl⟩ := Option.map_eq_some_iff.1 h
  have hmem := List.mem_of_find?_eq_some hfind
  simp only [requirements, List.mem_cons, List.not_mem_nil, or_false] at hmem
  rcases hmem with rfl | rfl | rfl | rfl | rfl | rfl
  case inr.inr.inr.inl =>
    dsimp only
    split
    · next hle => exact ⟨nofun, fun latest got he => by cases he; exact hle⟩
    · exact ⟨nofun, nofun⟩
  all_goals exact ⟨nofun, nofun⟩

/-- The nonce that follows another one is larger, and it is the next word. -/
theorem Voucher.follows_iff {v : Voucher S} {n : UInt64} :
    v.nonce.toNat = n.toNat + 1 ↔ ¬ v.nonce ≤ n ∧ v.nonce = Atoms.plus n 1 := by
  have hmax := Atoms.toNat_le_top v.nonce
  have hplus : (Atoms.plus n 1).toNat = min (n.toNat + 1) 0xFFFFFFFFFFFFFFFF := Atoms.toNat_plus n 1
  rw [← UInt64.toNat_inj, UInt64.le_iff_toNat_le, hplus]
  -- `plus` stops at the largest word, and there a larger nonce does not exist
  omega

/-- The checks of a voucher by itself are the first four requirements. -/
theorem Voucher.checkStatic_eq (L : Ledger S) (v : Voucher S) (chain : ChainSnapshot) :
    v.checkStatic L.vendor (L.newest v.client) =
      .of ((((L.requirements v chain).take 4).find? fun r => !r.1).map (·.2)) := by
  have hfollows := v.follows_iff (n := L.newest v.client)
  unfold checkStatic Ledger.requirements
  cases v.isAuthentic with
  | false => rfl
  | true =>
    by_cases hzero : v.atoms = 0
    · simp [hzero, Verdict.of]
    have hpos : 0 < v.atoms := UInt64.pos_iff_ne_zero.2 hzero
    by_cases hvendor : v.vendor = L.vendor
    · by_cases hle : v.nonce ≤ L.newest v.client
      · simp [hpos, hzero, hvendor, hfollows, hle, Verdict.of]
      · by_cases hnext : v.nonce = Atoms.plus (L.newest v.client) 1
        · have hnonce := hfollows.2 ⟨hle, hnext⟩
          simp [hpos, hzero, hvendor, hle, hnonce, ← hnext, Verdict.of]
        · simp [hpos, hzero, hvendor, hfollows, hle, hnext, Verdict.of]
    · simp [hpos, hzero, hvendor, Verdict.of]

namespace Ledger

variable {L M : Ledger S} {c : S.Party} {v : Voucher S} {chain : ChainSnapshot}

theorem Sound.toNat_newest (h : L.Sound) (c : S.Party) :
    (L.newest c).toNat = L.genesis.toNat + (L.chain c).vouchers.length := h.latest c

/-- No nonce behind the newest one is marked spent. -/
theorem Sound.contains_spent_of_next (h : L.Sound) {n : UInt64} (hn : n.toNat = (L.newest c).toNat + 1) :
    (L.chain c).spent.contains n = false := by
  rw [Bool.eq_false_iff]
  intro hin
  rw [h.spent c] at hin
  obtain ⟨w, hw, rfl⟩ := List.mem_map.1 (List.contains_iff_mem.1 hin)
  have hmem := List.mem_map_of_mem (f := (·.nonce.toNat)) ((h.spent_vouchers c).2.subset hw)
  rw [h.nonces c] at hmem
  have hlt := (List.mem_range'_1.1 hmem).2
  rw [h.toNat_newest c] at hn
  omega

/-- Accepted vouchers stay on record, and only what is recorded joins them. -/
theorem Sound.vouchers_trail {allowed : Entry S → Prop} (h : L.Sound) (ht : Trail allowed L M) (c : S.Party) :
    ∃ new, (M.chain c).vouchers = (L.chain c).vouchers ++ new ∧ ∀ v ∈ new, allowed (.recorded v) := by
  induction ht with
  | refl => exact ⟨[], (List.append_nil _).symm, nofun⟩
  | tail hpath hstep ih =>
    obtain ⟨new, hvouchers, hnew⟩ := ih
    rcases hstep with ⟨e, he, ha, rfl⟩
    rw [(h.trail hpath).chain_post ha]
    cases e with
    | recorded v =>
      dsimp only
      split
      · refine ⟨new ++ [v], by rw [hvouchers, List.append_assoc], fun w hw => ?_⟩
        rcases List.mem_append.1 hw with hw | hw
        · exact hnew w hw
        · obtain rfl := List.mem_singleton.1 hw
          exact he
      · exact ⟨new, hvouchers, hnew⟩
    | marked client p =>
      dsimp only
      split <;> exact ⟨new, hvouchers, hnew⟩
    | _ => exact ⟨new, hvouchers, hnew⟩

theorem Sound.allows_recorded (h : L.Sound) (hv : L.refusal? v chain = none) : L.Allows (.recorded v) := by
  obtain ⟨-, -, hvendor, hnonce, -⟩ := refusal?_eq_none_iff.1 hv
  refine ⟨hvendor, ?_⟩
  rw [hnonce, h.toNat_newest]
  omega

/-- The store takes the voucher that follows the newest one. -/
theorem Sound.insertable (h : L.Sound) (ha : L.Allows (.recorded v)) :
    (L.chain v.client).insert v =
      .ok (true, { L.chain v.client with vouchers := (L.chain v.client).vouchers ++ [v] }) := by
  have hlatest := h.latest v.client
  unfold VoucherChain.insert
  cases hl : (L.chain v.client).latest? with
  | none => rfl
  | some latest =>
    rw [hl] at hlatest
    have hnext : v.nonce.toNat = latest.toNat + 1 := by
      rw [ha.2]
      have : latest.toNat = _ := hlatest
      omega
    have hnew : ¬ v.nonce ≤ latest := by
      rw [UInt64.le_iff_toNat_le]
      omega
    have hfollows : v.nonce = latest + 1 := by
      have hmax := Atoms.toNat_le_top v.nonce
      rw [← UInt64.toNat_inj, UInt64.toNat_add, hnext]
      exact (Nat.mod_eq_of_lt (by omega)).symm
    dsimp only
    rw [if_neg hnew, if_neg (not_not.2 hfollows)]

end Ledger

namespace Gateway

variable {g : Gateway S} {L : Ledger S} {v : Voucher S} {chain : ChainSnapshot}

/-- For the next voucher of a client the checks against standing and marks are the last two requirements. -/
theorem ends_checkVolatile (hL : L.Sound) (hg : g.ledger = L) (hvendor : v.vendor = L.vendor)
    (hnonce : v.nonce.toNat = (L.newest v.client).toNat + 1) :
    Ends
      (fun a g' => g'.ledger = L ∧
        a = .of ((((L.requirements v chain).drop 4).find? fun r => !r.1).map (·.2)))
      (fun e g' => g'.ledger = L ∧ e.IsOutage)
      ((onVouchers (v.checkVolatile L.config.credit chain)).run g) := by
  simp only [Ledger.requirements, List.drop_succ_cons, List.drop_zero, List.find?_cons]
  unfold Voucher.checkVolatile
  cases chain.isActive with
  | false => exact ⟨hg, rfl⟩
  | true =>
    by_cases hcovers : v.atoms ≤ Voucher.collateralFor L.config.credit chain
    · -- the voucher is newer than whatever is marked
      have hfresh := hL.contains_spent_of_next hnonce
      rw [Ledger.chain, ← hvendor] at hfresh
      simp only [Bool.not_true, Bool.false_eq_true, if_false, if_neg (UInt64.not_lt.2 hcovers), hcovers,
        decide_true, VoucherStore.isSpent, bind_assoc]
      refine ends_vouchers hg ?_
      rintro g' rfl
      have hfresh : (g'.vouchers.chain v.id.client v.id.vendor).spent.contains v.id.nonce = false := hfresh
      refine Action.ends_within.2 ?_
      rw [Action.run_get_bind, Action.run_pure_bind, hfresh]
      exact ⟨rfl, rfl⟩
    · simp only [Bool.not_true, Bool.false_eq_true, if_false, if_pos (UInt64.not_le.1 hcovers), hcovers,
        decide_false, Bool.not_false]
      exact ⟨hg, rfl⟩

/-- The checks of a voucher come to what is asked of it. -/
theorem ends_validate {config : CreditConfig} {vendor : S.Party} {prior : UInt64} (chain : ChainSnapshot)
    (hL : L.Sound) (hg : g.ledger = L) (hconfig : config = L.config.credit) (hvendor : vendor = L.vendor)
    (hprior : prior = L.newest v.client) :
    Ends (fun a g' => g'.ledger = L ∧ a = .of (L.refusal? v chain)) (fun e g' => g'.ledger = L ∧ e.IsOutage)
      ((onVouchers (v.validate config vendor prior chain)).run g) := by
  subst hconfig hvendor hprior
  have hrefusal : L.refusal? v chain =
      ((((L.requirements v chain).take 4).find? fun r => !r.1).or
        (((L.requirements v chain).drop 4).find? fun r => !r.1)).map (·.2) := by
    rw [Ledger.refusal?, ← List.find?_append, List.take_append_drop]
  unfold Voucher.validate
  rw [Voucher.checkStatic_eq L v chain, hrefusal]
  cases hstatic : ((L.requirements v chain).take 4).find? fun r => !r.1 with
  | some r => exact ⟨hg, rfl⟩
  | none =>
    have hmet : v.isAuthentic = true ∧ 0 < v.atoms ∧ v.vendor = L.vendor ∧
        v.nonce.toNat = (L.newest v.client).toNat + 1 := by
      simpa [Ledger.requirements] using hstatic
    exact ends_checkVolatile hL hg hmet.2.2.1 hmet.2.2.2

/-! ## Accepting a voucher -/

/-- What a read of the chain answers now. -/
def reading (g : Gateway S) (client : S.Party) : Except String ChainSnapshot :=
  ((ChainReader.read client g.vendor).run ChainReader.elapse g.chain).1

end Gateway

/-- All that lasts is the same, and so is the chain; stores that answer go on doing so. -/
structure Gateway.Undisturbed (g g' : Gateway S) : Prop where
  ledger : g'.ledger = g.ledger
  chain : g'.chain = g.chain
  reliable : g.Reliable → g'.Reliable

namespace Ledger

/-- A voucher is acceptable and recorded; unmarked cost is taken off then, in full if the stores answer. -/
structure Accepts (L : Ledger S) (v : Voucher S) (reading : Except String ChainSnapshot) (answering : Prop)
    (M : Ledger S) : Prop where
  acceptable : ∃ chain, reading = .ok chain ∧ L.refusal? v chain = none
  recorded : Trail (Entry.SpendsFor v.client none) (L.post (.recorded v)) M
  calm : answering → L.Calm v.client → M.Calm v.client

/-- A voucher is not accepted: a store or the chain did not answer, or it is turned down. -/
inductive Declines (L : Ledger S) (v : Voucher S) (reading : Except String ChainSnapshot) (answering : Prop) :
    Error → Ledger S → Prop
  | unanswered {e : Error} (outage : e.IsOutage) (failed : ¬ answering) : Declines L v reading answering e L
  | unread {detail : String} (failed : reading = .error detail) :
    Declines L v reading answering (.chainUnavailable detail) L
  | refused {chain : ChainSnapshot} {reason : Rejection} (read : reading = .ok chain)
    (refusal : L.refusal? v chain = some reason) :
    Declines L v reading answering (.rejected reason) (L.post (.refused .sessionRejected))

variable {L M : Ledger S} {v : Voucher S} {reading : Except String ChainSnapshot} {p q : Prop}

theorem Accepts.of_imp (h : L.Accepts v reading p M) (himp : q → p) : L.Accepts v reading q M :=
  ⟨h.acceptable, h.recorded, fun hq => h.calm (himp hq)⟩

/-- An accepted voucher is the newest of its client's. -/
theorem Accepts.vouchers (h : L.Accepts v reading p M) (hL : L.Sound) :
    (M.chain v.client).vouchers = (L.chain v.client).vouchers ++ [v] := by
  obtain ⟨chain, -, hrefusal⟩ := h.acceptable
  have ha := hL.allows_recorded hrefusal
  obtain ⟨new, hvouchers, hnew⟩ := (hL.post ha).vouchers_trail h.recorded v.client
  rw [List.eq_nil_iff_forall_not_mem.2 fun w hw => hnew w hw, List.append_nil] at hvouchers
  rw [hvouchers, hL.chain_post ha]
  exact congrArg VoucherChain.vouchers (if_pos rfl)

/-- Either something did not answer, or the voucher is turned down. -/
theorem Declines.cases {e : Error} (h : L.Declines v reading p e M) :
    e.errorClass = .infrastructure ∧ (p → ∃ detail, reading = .error detail) ∨
      e.errorClass ≠ .infrastructure ∧
        ∃ chain reason, reading = .ok chain ∧ L.refusal? v chain = some reason ∧ e = .rejected reason := by
  cases h with
  | unanswered outage failed =>
    obtain ⟨detail, rfl⟩ := outage
    exact .inl ⟨rfl, fun hp => absurd hp failed⟩
  | unread failed => exact .inl ⟨rfl, fun _ => ⟨_, failed⟩⟩
  | @refused chain reason read refusal =>
    refine .inr ⟨?_, chain, reason, read, refusal, rfl⟩
    cases reason <;> nofun

theorem Declines.of_imp {e : Error} (h : L.Declines v reading p e M) (himp : q → p) :
    L.Declines v reading q e M := by
  cases h with
  | unanswered outage failed => exact .unanswered outage fun hq => failed (himp hq)
  | unread failed => exact .unread failed
  | refused read refusal => exact .refused read refusal

end Ledger

namespace Gateway

variable {g : Gateway S} {L : Ledger S} {v : Voucher S} {chain : ChainSnapshot}

theorem Undisturbed.reading {g' : Gateway S} (h : g.Undisturbed g') (client : S.Party) :
    g'.reading client = g.reading client := by
  have hvendor : g'.vendor = g.vendor := congrArg Ledger.vendor h.ledger
  unfold Gateway.reading
  rw [hvendor, h.chain]

theorem ends_priorNonce (client : S.Party) (hL : L.Sound) (hg : g.ledger = L) :
    Ends (fun a g' => g.Undisturbed g' ∧ a = L.newest client)
      (fun e g' => g'.ledger = L ∧ e.IsOutage ∧ ¬ g.Reliable) ((priorNonce client).run g) := by
  unfold priorNonce
  rw [Action.run_get_bind]
  have hasked := ((ends_latestNonce client hg (congrArg Ledger.vendor hg) hL.honest).and
    ((steady_onVouchers (VoucherStore.steady_latestNonce client g.vendor)).ends g)).and
    (Ends.always (P := fun g' => g'.chain = g.chain) rfl)
  refine Action.ends_bind (hasked.mono_error fun _ _ h => ⟨h.1.1.1, h.1.1.2, fun hr => h.1.2 hr h.1.1.2⟩) ?_
  rintro latest g' ⟨⟨⟨hg', rfl⟩, hr⟩, hchain⟩
  have hgenesis : g.config.engine.genesisNonce = L.genesis := congrArg (fun M => M.genesis) hg
  rw [hgenesis]
  exact ⟨⟨hg'.trans hg.symm, hchain, hr⟩, rfl⟩

/-- Arrears are taken off as far as the stores let it; what is left waits for the next time. -/
theorem ends_absorbArrears {client : S.Party} {arrears : Atoms} (hL : L.Sound) (hg : g.ledger = L)
    (ha : arrears = L.unmarkedOf client) :
    Ends
      (fun _ g' => Ledger.Trail (Entry.SpendsFor client none) L g'.ledger ∧ (g.Reliable → g'.ledger.Calm client))
      (fun _ _ => False) ((absorbArrears client arrears).run g) := by
  have h := Ends.and (writes_absorb (fun e (he : Entry.SpendsFor client none e) => he) hL hg ha nofun)
    ((steady_absorb client arrears none).ends g)
  unfold absorbArrears
  rw [Action.run_bind, Action.run_attempt]
  rcases hr : (absorb client arrears none).run g with ⟨e | a, g'⟩ <;> rw [hr] at h
  · -- a store that does not answer is no reason to turn the voucher down
    have hfatal : e.isFatal = false := h.1.2.not_fatal
    dsimp only
    rw [hfatal]
    exact ⟨h.1.1, fun hreliable => absurd h.1.2 (h.2 hreliable)⟩
  · exact ⟨h.1.1, fun _ => ⟨h.1.2.1, h.1.2.2⟩⟩

/-- A voucher is recorded if it is acceptable; before that nothing is written but that it is turned down. -/
theorem ends_recordVoucher {prior : UInt64} (chain : ChainSnapshot) (hL : L.Sound) (hg : g.ledger = L)
    (hprior : prior = L.newest v.client) :
    Ends (fun n g' => n = v.nonce ∧ L.Accepts v (.ok chain) g.Reliable g'.ledger)
      (fun e g' => L.Declines v (.ok chain) g.Reliable e g'.ledger) ((recordVoucher v prior chain).run g) := by
  have unanswered : ∀ {e : Error} {g' : Gateway S}, g'.ledger = L → e.IsOutage → ¬ g.Reliable →
      L.Declines v (.ok chain) g.Reliable e g'.ledger := by
    rintro e g' hg' hout hfailed
    exact hg' ▸ .unanswered hout hfailed
  unfold recordVoucher
  rw [Action.run_get_bind]
  have hvalidate := (ends_validate chain hL hg (congrArg (fun M => M.config.credit) hg)
    (congrArg Ledger.vendor hg) hprior).and ((steady_validate g.vendor v g.config.credit prior chain).ends g)
  refine Action.ends_bind (hvalidate.mono_error fun _ _ h =>
    unanswered h.1.1 h.1.2 fun hr => h.2 hr h.1.2) ?_
  rintro verdict g₁ ⟨⟨hg₁, rfl⟩, hr₁⟩
  cases hrefusal : L.refusal? v chain with
  | some reason =>
    have hpost : ((reject reason : Step S UInt64).run g₁).2.ledger = L.post (.refused .sessionRejected) := by
      subst hg₁
      exact ledger_count g₁ .sessionRejected
    have hdeclined : L.Declines v (.ok chain) g.Reliable (.rejected reason)
        ((reject reason : Step S UInt64).run g₁).2.ledger := hpost ▸ .refused rfl hrefusal
    exact hdeclined
  | none =>
    have ha := hL.allows_recorded hrefusal
    have hread := (ends_readUnmarked v.client hg₁).and ((steady_readUnmarked v.client).ends g₁)
    refine Action.ends_bind (hread.mono_error fun _ _ h =>
      unanswered h.1.1 h.1.2 fun hr => h.2 (hr₁ hr) h.1.2) ?_
    rintro arrears g₂ ⟨⟨hg₂, rfl⟩, hr₂⟩
    have hinsert := (ends_insert hg₂ ha.1 (hL.insertable ha)).and
      ((steady_onVouchers (VoucherStore.steady_insert v)).ends g₂)
    refine Action.ends_bind (hinsert.mono_error fun _ _ h =>
      unanswered h.1.1 h.1.2 fun hr => h.2 (hr₂ (hr₁ hr)) h.1.2) ?_
    rintro added g₃ ⟨⟨hg₃, rfl⟩, hr₃⟩
    have hg₃ : g₃.ledger = L.post (.recorded v) := by
      simp only [hg₃, Ledger.post, Ledger.chain, ha.1]
    -- from here on nothing turns the voucher down
    dsimp only [Bool.not_true]
    rw [if_neg (by simp)]
    split
    · refine Action.ends_bind ((ends_absorbArrears (hL.post ha) hg₃ rfl).mono_error fun _ _ h => h.elim) ?_
      rintro _ g₄ ⟨ht, hcalm⟩
      exact ⟨rfl, ⟨chain, rfl, hrefusal⟩, ht, fun hr _ => hcalm (hr₃ (hr₂ (hr₁ hr)))⟩
    · next hzero =>
      have hpos := (Ledger.refusal?_eq_none_iff.1 hrefusal).2.1
      refine ⟨rfl, ⟨chain, rfl, hrefusal⟩, hg₃ ▸ .refl, fun _ hcalm => hg₃ ▸ ?_⟩
      exact hcalm.recorded hL ha hpos (by simpa using hzero)

/-- How an attempt to have a voucher accepted ends. -/
theorem ends_acceptVoucher (hL : L.Sound) (hg : g.ledger = L) :
    Ends (fun n g' => n = v.nonce ∧ L.Accepts v (g.reading v.client) g.Reliable g'.ledger)
      (fun e g' => L.Declines v (g.reading v.client) g.Reliable e g'.ledger) ((acceptVoucher v).run g) := by
  unfold acceptVoucher
  refine Op.ends_bind ((ends_priorNonce v.client hL hg).mono_error fun _ _ h =>
    h.1 ▸ .unanswered h.2.1 h.2.2) ?_
  rintro prior g₁ ⟨h₁, hprior⟩
  rw [Op.run_get_bind, Op.run_bind, Op.run_readChain]
  have hread : ((ChainReader.read v.client g₁.vendor).run ChainReader.elapse g₁.chain).1 = g.reading v.client :=
    h₁.reading v.client
  dsimp only
  rw [hread]
  cases hreading : g.reading v.client with
  | error detail => exact (h₁.ledger.trans hg) ▸ .unread rfl
  | ok chain =>
    -- reading the chain changes the reader alone
    have hrecord := ends_recordVoucher chain
      (g := { g₁ with chain := ((ChainReader.read v.client g₁.vendor).run ChainReader.elapse g₁.chain).2 })
      hL (h₁.ledger.trans hg) hprior
    exact hrecord.mono (fun _ _ h => ⟨h.1, h.2.of_imp h₁.reliable⟩) fun _ _ h => h.of_imp h₁.reliable

end Gateway
end VoucherGateway
