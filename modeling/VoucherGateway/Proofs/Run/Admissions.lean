import VoucherGateway.Proofs.Run.Reliable

/-!
# Admissions — the vouchers that a run accepts

A voucher is offered to open a session, or for an open session of its client.  While its client is not halted,
what becomes of the offer depends on the voucher, on the newest nonce and on the chain alone, unless something
does not answer.  Main statement: exactly the next voucher is accepted (`accepts_exactly_next`).
-/

namespace VoucherGateway

variable {S : Scheme}

/-- The voucher that a call offers. -/
def Call.offered? : Call S → Option (Voucher S)
  | .acceptSession v | .topUp _ v => some v
  | _ => none

/-- The offers of a voucher that do not fail for want of a session. -/
inductive Call.Offers (L : Ledger S) (v : Voucher S) : Call S → Prop
  | opening : Offers L v (.acceptSession v)
  | renewing {id : SessionId} (renews : L.Renews v id) : Offers L v (.topUp id v)

theorem Call.Offers.offered {L : Ledger S} {v : Voucher S} {call : Call S} (h : call.Offers L v) :
    call.offered? = some v := by
  cases h <;> rfl

namespace Gateway

variable {g : Gateway S} {w : World S} {v : Voucher S} {call : Call S}

/-- What a client's standing reads in a world. -/
def readingIn (g : Gateway S) (w : World S) (client : S.Party) : Except String ChainSnapshot :=
  (g.inWorld w).reading client

/-- How the offer of a voucher ends. -/
theorem offer_after (hL : g.ledger.Sound) (hcall : call.offered? = some v) :
    Ends
      (fun _ g' => ∃ M, g.ledger.Accepts v (g.readingIn w v.client) w.Reliable M ∧
        ∀ client, g'.ledger.chain client = M.chain client)
      (fun e g' => g.ledger.TurnsAway v (call.Offers g.ledger v) (g.readingIn w v.client) w.Reliable e
        g'.ledger)
      (g.after ⟨w, call⟩) := by
  unfold after
  cases call with
  | acceptSession v' =>
    obtain rfl : v' = v := Option.some.inj hcall
    refine Op.ends_map ((ends_acceptSession (g := g.inWorld w) (v := v') hL rfl).mono ?_ fun _ _ h =>
      h.of_imp fun _ => trivial)
    rintro _ g' ⟨M, time, haccepts, -, hg'⟩
    exact ⟨M, haccepts, fun client => by rw [hg']; rfl⟩
  | topUp id v' =>
    obtain rfl : v' = v := Option.some.inj hcall
    have eligible : (Call.topUp id v').Offers g.ledger v' → g.ledger.Renews v' id := fun h => by
      cases h with
      | renewing renews => exact renews
    refine Op.ends_map ((ends_topUp (g := g.inWorld w) (v := v') id hL rfl).mono ?_ fun _ _ h =>
      h.of_imp eligible)
    rintro _ g' ⟨M, time, haccepts, -, -, hg'⟩
    exact ⟨M, haccepts, fun client => by rw [hg']; rfl⟩
  | _ => cases hcall

/-- While its client is not halted, an eligible offer that is not accepted is declined. -/
theorem declines_after (hL : g.ledger.Sound) (hoffers : call.Offers g.ledger v)
    (hrun : g.gate.isHalted v.client = false) {e : Error} (he : (g.after ⟨w, call⟩).1 = .error e) :
    g.ledger.Declines v (g.readingIn w v.client) w.Reliable e (g.after ⟨w, call⟩).2.ledger :=
  ((offer_after hL hoffers.offered).of_error he).declines hoffers (isHalted_eq_false_iff.1 hrun)

theorem accepts_after (hL : g.ledger.Sound) (hcall : call.offered? = some v) {reply : Reply S}
    (hr : (g.after ⟨w, call⟩).1 = .ok reply) :
    (∃ chain, g.readingIn w v.client = .ok chain ∧ g.ledger.refusal? v chain = none) ∧
      ((g.after ⟨w, call⟩).2.ledger.chain v.client).vouchers = (g.ledger.chain v.client).vouchers ++ [v] := by
  obtain ⟨M, haccepts, hchain⟩ := (offer_after hL hcall).of_ok hr
  exact ⟨haccepts.acceptable, (congrArg VoucherChain.vouchers (hchain v.client)).trans (haccepts.vouchers hL)⟩

/-- What becomes of an eligible offer while its client is not halted, if stores and chain answer. -/
theorem admission_after (hL : g.ledger.Sound) (hoffers : call.Offers g.ledger v)
    (hrun : g.gate.isHalted v.client = false)
    (hanswered : ∀ e, (g.after ⟨w, call⟩).1 = .error e → e.errorClass ≠ .infrastructure) :
    ∃ chain, g.readingIn w v.client = .ok chain ∧
      ((∃ reply, (g.after ⟨w, call⟩).1 = .ok reply) ↔ g.ledger.refusal? v chain = none) ∧
      ∀ e, (g.after ⟨w, call⟩).1 = .error e →
        ∃ reason, g.ledger.refusal? v chain = some reason ∧ e = .rejected reason := by
  cases houtcome : (g.after ⟨w, call⟩).1 with
  | error e =>
    have hdeclines := declines_after hL hoffers hrun houtcome
    rcases hdeclines.cases with ⟨hclass, -⟩ | ⟨-, chain, reason, hread, hrefusal, he⟩
    · exact absurd hclass (hanswered e houtcome)
    · refine ⟨chain, hread, ⟨nofun, fun hnone => ?_⟩, fun e' he' => ⟨reason, hrefusal, ?_⟩⟩
      · cases hrefusal.symm.trans hnone
      · exact (Except.error.inj he').symm.trans he
  | ok reply =>
    obtain ⟨⟨chain, hread, hnone⟩, -⟩ := accepts_after hL hoffers.offered houtcome
    exact ⟨chain, hread, ⟨fun _ => hnone, fun _ => ⟨reply, rfl⟩⟩, nofun⟩

/-- An offer is never turned down because the voucher is marked spent, nor because the store holds it although
its nonce is newer than the newest one. -/
theorem rejection_after (hL : g.ledger.Sound) (hcall : call.offered? = some v) {reason : Rejection}
    (hr : (g.after ⟨w, call⟩).1 = .error (.rejected reason)) :
    ∃ chain, g.readingIn w v.client = .ok chain ∧ g.ledger.refusal? v chain = some reason := by
  rcases (offer_after hL hcall).of_error hr with declines | _
  rcases declines.cases with ⟨hclass, -⟩ | ⟨-, chain, reason', hread, hrefusal, he⟩
  · cases reason <;> cases hclass
  · obtain rfl := Error.rejected.inj he
    exact ⟨chain, hread, hrefusal⟩

/-- While its client is not halted, and if the stores and the chain answer, a voucher that is offered is accepted
exactly if it meets all that is asked of it, and else it is turned down for the first thing it does not meet.  In
particular its nonce is one more than the newest one, as a number.  (An accepted voucher is on record, whether the
call answers then, or panics because it cannot count one more session.)  So the accepted nonces of a client follow each
other without a gap from the one after the first nonce on, whatever fails, and none goes away again; and neither
a spent mark nor a nonce already in the store ever decides about a voucher. -/
theorem accepts_exactly_next (vendor : S.Party) (config : GatewayConfig) (metrics : Metrics)
    (ms : List (Move S)) :
    let g := (fresh vendor config metrics).play ms
    let vouchers := fun client => (g.ledger.chain client).vouchers
    let newest := fun client => (g.ledger.chain client).latest?.getD config.engine.genesisNonce
    (∀ (w : World S) (call : Call S) (v : Voucher S), call.Offers g.ledger v →
      g.gate.isHalted v.client = false →
      let outcome := (g.after ⟨w, call⟩).1
      let answered := ∀ e, outcome = .error e → e.errorClass ≠ .infrastructure
      (answered → ∃ chain, g.readingIn w v.client = .ok chain ∧
        ((∃ reply, outcome = .ok reply) ↔
          v.isAuthentic = true ∧ 0 < v.atoms ∧ v.vendor = vendor ∧
            v.nonce.toNat = (newest v.client).toNat + 1 ∧ chain.isActive = true ∧
            v.atoms ≤ Voucher.collateralFor config.credit chain) ∧
        ∀ e, outcome = .error e → ∃ reason, g.ledger.refusal? v chain = some reason ∧ e = .rejected reason) ∧
      (w.Reliable → (∃ chain, g.readingIn w v.client = .ok chain) → answered) ∧
      ∀ reply, outcome = .ok reply →
        ((g.after ⟨w, call⟩).2.ledger.chain v.client).vouchers = vouchers v.client ++ [v]) ∧
    (∀ client, (vouchers client).map (·.nonce.toNat) =
      List.range' (config.engine.genesisNonce.toNat + 1) (vouchers client).length) ∧
    (∀ m client, vouchers client <+: ((g.after m).2.ledger.chain client).vouchers) ∧
    (∀ (w : World S) (call : Call S) (v : Voucher S) (reason : Rejection), call.offered? = some v →
      (g.after ⟨w, call⟩).1 = .error (.rejected reason) →
      (∀ nonce, reason ≠ .alreadySpent nonce) ∧
        ∀ latest got, reason = .nonceReplay latest got → got ≤ latest) ∧
    ∀ v : Voucher S, v.vendor = vendor → v.nonce.toNat = (newest v.client).toNat + 1 →
      let chain := g.ledger.chain v.client
      chain.spent.contains v.nonce = false ∧
        chain.insert v = .ok (true, { chain with vouchers := chain.vouchers ++ [v] }) := by
  intro g vouchers newest
  have hstart := blank_fresh (S := S) vendor config metrics
  have hL : g.ledger.Sound := sound_play hstart ms
  have hvendor : g.ledger.vendor = vendor := vendor_play hstart ms
  have hconfig : g.ledger.config = config := config_play hstart ms
  have hnewest : ∀ client, g.ledger.newest client = newest client := by
    intro client
    rw [Ledger.newest, Ledger.genesis, hconfig]
  refine ⟨fun w call v hoffers hrun => ⟨fun hanswered => ?_, fun hw hread e he hclass => ?_, ?_⟩, ?_, ?_, ?_, ?_⟩
  · obtain ⟨chain, hread, haccepts, hrejects⟩ := admission_after hL hoffers hrun hanswered
    refine ⟨chain, hread, ?_, hrejects⟩
    rw [← hnewest, ← hvendor, ← hconfig]
    exact haccepts.trans Ledger.refusal?_eq_none_iff
  · obtain ⟨chain, hread⟩ := hread
    rcases (declines_after hL hoffers hrun he).cases with ⟨-, hfailed⟩ | ⟨hne, -⟩
    · obtain ⟨detail, hfailed⟩ := hfailed hw
      cases hread.symm.trans hfailed
    · exact hne hclass
  · exact fun reply hr => (accepts_after hL hoffers.offered hr).2
  · intro client
    have h := hL.nonces client
    rw [Ledger.genesis, hconfig] at h
    exact h
  · intro m client
    obtain ⟨new, hnew, -⟩ := hL.vouchers_trail (trail_after m hL) client
    exact ⟨new, hnew.symm⟩
  · intro w call v reason hcall hr
    obtain ⟨chain, -, hrefusal⟩ := rejection_after hL hcall hr
    exact Ledger.refusal?_by_itself hrefusal
  · intro v hv hnext
    rw [← hnewest] at hnext
    refine ⟨hL.contains_spent_of_next hnext, hL.insertable ⟨hv.trans hvendor.symm, ?_⟩⟩
    rw [hnext, hL.toNat_newest]
    omega

/-- The largest nonce is accepted if it is the next; nothing follows it, and nonces do not start over. -/
theorem accepts_exactly_next_sample :
    let config := { Sample.config with engine := { genesisNonce := 0xFFFFFFFFFFFFFFFE } }
    let start : Gateway Scheme.plain := fresh (S := Scheme.plain) 9 config {}
    let last : Voucher Scheme.plain := ⟨1, 9, 0xFFFFFFFFFFFFFFFF, 100, true⟩
    let first : Voucher Scheme.plain := ⟨1, 9, 0, 100, true⟩
    let opening : Move Scheme.plain := ⟨Sample.world, .acceptSession last⟩
    (∃ reply, (start.after opening).1 = .ok reply) ∧
      ((start.play [opening]).ledger.chain 1).vouchers = [last] ∧
      ((start.play [opening]).after ⟨Sample.world, .topUp ⟨1⟩ first⟩).1 =
        .error (.rejected (.nonceReplay 0xFFFFFFFFFFFFFFFF 0)) := by
  intro config start last first opening
  let chain : ChainSnapshot := { collateral := 1000, subscribedVendorCount := 1, subscribed := true }
  have hworld : Sample.world.Reliable := World.reliable_answering _
  obtain ⟨hopening, -⟩ := accepts_exactly_next (S := Scheme.plain) 9 config {} []
  obtain ⟨haccepts, hanswers, hvouchers⟩ := hopening Sample.world opening.call last .opening (by decide +kernel)
  obtain ⟨chain', hread, haccepted, -⟩ := haccepts (hanswers hworld ⟨chain, rfl⟩)
  obtain rfl : chain = chain' := Except.ok.inj hread
  obtain ⟨reply, hreply⟩ := haccepted.2 (by decide +kernel)
  obtain ⟨hrenewing, -⟩ := accepts_exactly_next (S := Scheme.plain) 9 config {} [opening]
  have hopen : ((fresh (S := Scheme.plain) 9 config {}).play [opening]).ledger.Renews first ⟨1⟩ := by
    decide +kernel
  obtain ⟨hturned, hanswers', -⟩ := hrenewing Sample.world (.topUp ⟨1⟩ first) first (.renewing hopen)
    (by decide +kernel)
  obtain ⟨chain', hread', haccepted', hrejects⟩ := hturned (hanswers' hworld ⟨chain, rfl⟩)
  obtain rfl : chain = chain' := Except.ok.inj hread'
  refine ⟨⟨reply, hreply⟩, hvouchers reply hreply, ?_⟩
  cases houtcome : (((fresh (S := Scheme.plain) 9 config {}).play [opening]).after
      ⟨Sample.world, .topUp ⟨1⟩ first⟩).1 with
  | ok reply' =>
    -- no number is the next nonce
    obtain ⟨-, -, -, hnext, -⟩ := haccepted'.1 ⟨reply', houtcome⟩
    exact absurd hnext (by decide +kernel)
  | error e =>
    obtain ⟨reason, hrefusal, rfl⟩ := hrejects e houtcome
    have hfirst : ((fresh (S := Scheme.plain) 9 config {}).play [opening]).ledger.refusal? first chain =
        some (.nonceReplay 0xFFFFFFFFFFFFFFFF 0) := by decide +kernel
    rw [Option.some.inj (hrefusal.symm.trans hfirst)]

end Gateway
end VoucherGateway
