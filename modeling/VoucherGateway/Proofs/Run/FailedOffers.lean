import VoucherGateway.Proofs.Likeness
import VoucherGateway.Proofs.Run.Admissions

/-!
# Failed offers — nothing is left of them

An offer that fails leaves the ledger as it was, but for the count of rejections if the voucher was turned down.
Nothing that a gateway does depends on that count, so whatever comes later comes as if the offer had not been
made.  Main statement: `failed_offer_traceless`.
-/

namespace VoucherGateway

variable {S : Scheme}

/-- The ledger with more rejections. -/
def Ledger.rejecting (L : Ledger S) (n : UInt64) : Ledger S := { L with counters := L.counters.rejecting n }

/-- The rejections that an error counts for. -/
def Error.rejections : Error → UInt64
  | .rejected _ => 1
  | _ => 0

theorem Ledger.rejecting_zero (L : Ledger S) : L.rejecting 0 = L := by
  simp [rejecting, Counters.rejecting]

theorem Error.IsOutage.rejections {e : Error} (h : e.IsOutage) : e.rejections = 0 := by
  obtain ⟨detail, rfl⟩ := h
  rfl

/-- What an offer that is turned away leaves is known from the error. -/
theorem Ledger.TurnsAway.ledger {L M : Ledger S} {v : Voucher S} {eligible answering : Prop}
    {reading : Except String ChainSnapshot} {e : Error} (h : L.TurnsAway v eligible reading answering e M) :
    M = L.rejecting e.rejections := by
  rcases h with ⟨outage | _ | _⟩ | _ | _ | _
  case declined.unanswered => rw [outage.rejections, rejecting_zero]
  case declined.refused => rfl
  all_goals exact L.rejecting_zero.symm

namespace Op.Agree

variable {α β : Type} {R : Gateway S → Gateway S → Prop} {op op' : Op S α}

theorem map (h : Op.Agree R op op') (f : α → β) : Op.Agree R (f <$> op) (f <$> op') := by
  intro g g' hg
  obtain ⟨hout, hrel⟩ := h g g' hg
  rw [Op.run_map, Op.run_map]
  exact ⟨congrArg (Except.map f) hout, hrel⟩

end Op.Agree

namespace Gateway

variable {n : UInt64} {g g' : Gateway S}

/-! ## Calls -/

theorem blind_onSettlement {α : Type} (f : Settlement S → α × Settlement S) : Blind n (onSettlement f) := by
  rintro g g' ⟨locks, metrics, rfl, hm⟩
  exact ⟨rfl, locks, metrics, rfl, hm⟩

/-- No call tells gateways apart that are alike. -/
theorem blind_call (call : Call S) : BlindOp n call.op := by
  cases call with
  | acceptSession v => exact (blind_acceptSession v).map _
  | topUp id v => exact (blind_topUp id v).map _
  | acceptQuery session estimated => exact (blind_acceptQuery session estimated).map _
  | settleQuery id usage => exact (blind_settleQuery id usage).map _
  | abortQuery id => exact (blind_abort id false).map _
  | closeSession id => exact (blind_perform (blind_closeSession id)).map _
  | resumeClient client => exact (blind_perform (blind_resumeClient client)).map _
  | reap asOf => exact (blind_reap asOf).map _
  | beginBatch client => exact (blind_perform (blind_onSettlement _)).map _
  | completeBatch client reference => exact (blind_perform (blind_onSettlement _)).map _
  | failBatch client => exact (blind_perform (blind_onSettlement _)).map _

/-! ## Ledgers that are the same but for rejections -/

theorem Alike.ledger (h : Alike n g g') : g'.ledger = g.ledger.rejecting n := by
  obtain ⟨locks, metrics, rfl, hm⟩ := h
  simp [Gateway.ledger, Ledger.rejecting, dress, hm]

/-- In one world gateways with the same ledger but for rejections are alike. -/
theorem alike_inWorld (h : g'.ledger = g.ledger.rejecting n) (w : World S) :
    Alike n (g.inWorld w) (g'.inWorld w) := by
  refine ⟨g'.gate.locks, g'.metrics, ?_, congrArg Ledger.counters h⟩
  rcases g with ⟨_, _, ⟨_, _, _⟩, ⟨_, _⟩, ⟨_, _⟩, _, ⟨_, _⟩, _, _, _, _, _⟩
  rcases g' with ⟨_, _, ⟨_, _, _⟩, ⟨_, _⟩, ⟨_, _⟩, _, ⟨_, _⟩, _, _, _, _, _⟩
  simp only [Gateway.ledger, Ledger.rejecting, Ledger.mk.injEq] at h
  simp [inWorld, dress, h]

/-- What a move comes to and what it leaves does not depend on rejections. -/
theorem after_rejecting (h : g'.ledger = g.ledger.rejecting n) (m : Move S) :
    (g'.after m).1 = (g.after m).1 ∧ (g'.after m).2.ledger = (g.after m).2.ledger.rejecting n := by
  obtain ⟨hout, halike⟩ := blind_call m.call _ _ (alike_inWorld h m.world)
  exact ⟨hout, halike.ledger⟩

theorem play_rejecting (h : g'.ledger = g.ledger.rejecting n) (later : List (Move S)) :
    (g'.play later).ledger = (g.play later).ledger.rejecting n := by
  induction later with
  | nil => exact h
  | cons m earlier ih => exact (after_rejecting ih m).2

/-! ## Offers -/

variable {v : Voucher S} {m : Move S}

/-- An offer that fails is counted if it is a rejection, and leaves nothing else. -/
theorem ledger_after_offer (hL : g.ledger.Sound) (hcall : m.call.offered? = some v) {e : Error}
    (he : (g.after m).1 = .error e) : (g.after m).2.ledger = g.ledger.rejecting e.rejections :=
  ((offer_after (w := m.world) hL hcall).of_error he).ledger

/-- An offer never meets a contradiction. -/
theorem no_violation_after_offer (hL : g.ledger.Sound) (hcall : m.call.offered? = some v) (cause : Violation) :
    (g.after m).1 ≠ .error (.violation cause) := by
  have hne : ∀ id usage, m.call ≠ .settleQuery id usage := by
    intro id usage h
    rw [h] at hcall
    cases hcall
  exact (clean_of_ne_settle (g := g.inWorld m.world) hne hL).2 cause

/-- Whatever has failed before, an offer never meets a contradiction, and an offer that fails leaves all that
lasts as it was, but for one more rejection if the voucher was turned down.  So every later call has the outcome
it would have had if the offer had not been made, the same offer made again among them.  And the offer succeeds
exactly if the voucher is recorded: nothing that fails afterwards is reported, but for a panic that comes after all
is done. -/
theorem failed_offer_traceless (vendor : S.Party) (config : GatewayConfig) (metrics : Metrics)
    (ms : List (Move S)) (m : Move S) (v : Voucher S) (hoffered : m.call.offered? = some v) :
    let g := (fresh vendor config metrics).play ms
    let outcome := (g.after m).1
    let g' := (g.after m).2
    (∀ cause, outcome ≠ .error (.violation cause)) ∧
    (∀ e, outcome = .error e →
      g'.ledger = g.ledger.rejecting e.rejections ∧
        ∀ (later : List (Move S)) (next : Move S),
          ((g'.play later).after next).1 = ((g.play later).after next).1 ∧
            ((g'.play later).after next).2.ledger =
              ((g.play later).after next).2.ledger.rejecting e.rejections) ∧
    ((∃ reply, outcome = .ok reply) ↔
      (g'.ledger.chain v.client).vouchers = (g.ledger.chain v.client).vouchers ++ [v]) := by
  intro g outcome g'
  have hL : g.ledger.Sound := sound_play (blank_fresh vendor config metrics) ms
  refine ⟨no_violation_after_offer hL hoffered, fun e he => ?_, ?_⟩
  · have hledger := ledger_after_offer hL hoffered he
    exact ⟨hledger, fun later next => after_rejecting (play_rejecting hledger later) next⟩
  · refine ⟨fun ⟨reply, hr⟩ => (accepts_after (w := m.world) hL hoffered hr).2, fun hrecorded => ?_⟩
    cases houtcome : outcome with
    | ok reply => exact ⟨reply, rfl⟩
    | error e =>
      -- an offer that fails has not added to the vouchers
      have hledger : g'.ledger = g.ledger.rejecting e.rejections := ledger_after_offer hL hoffered houtcome
      rw [hledger] at hrecorded
      exact absurd (show (g.ledger.chain v.client).vouchers = _ from hrecorded) (by simp)

/-- The first voucher is lost on its way into the store, and opens a session when it is offered again.  The
second one is recorded although it cannot be used up for the arrears, and so the offer of it succeeds. -/
theorem failed_offer_traceless_sample :
    let lost : Move Scheme.plain := ⟨Sample.vouchersFailing .insert, .acceptSession Sample.voucher⟩
    let again : Move Scheme.plain := ⟨Sample.world, .acceptSession Sample.voucher⟩
    let settle : Move Scheme.plain := ⟨Sample.world, .settleQuery ⟨1⟩ ⟨540000, 0⟩⟩
    let next : Move Scheme.plain := ⟨Sample.vouchersFailing .unspent, .topUp ⟨1⟩ ⟨1, 9, 2, 40, true⟩⟩
    let ms := settle :: Sample.reserving 100
    (failure? (Sample.start.after lost).1 = some (.storeUnavailable "injected insert failure in voucher store") ∧
      (Sample.start.after lost).2.ledger = Sample.start.ledger ∧
      ∃ reply, ((Sample.start.after lost).2.after again).1 = .ok reply) ∧
    ((Sample.start.play (next :: ms)).ledger.chain 1).spent = [1] ∧
      ∃ reply, ((Sample.start.play ms).after next).1 = .ok reply := by
  intro lost again settle next ms
  have hlost : failure? (Sample.start.after lost).1 =
      some (.storeUnavailable "injected insert failure in voucher store") := by decide +kernel
  obtain ⟨-, htraceless, -⟩ := failed_offer_traceless (S := Scheme.plain) 9 Sample.config {} [] lost _ rfl
  obtain ⟨-, -, hagain⟩ := failed_offer_traceless (S := Scheme.plain) 9 Sample.config {} [] again _ rfl
  obtain ⟨-, -, hnext⟩ := failed_offer_traceless (S := Scheme.plain) 9 Sample.config {} ms next _ rfl
  obtain ⟨hledger, hlater⟩ := htraceless _ (eq_of_failure? hlost)
  obtain ⟨reply, hreply⟩ := hagain.2 (by decide +kernel)
  refine ⟨⟨hlost, ?_, reply, ?_⟩, by decide +kernel, hnext.2 (by decide +kernel)⟩
  · exact hledger.trans (Ledger.rejecting_zero _)
  · exact (hlater [] again).1.trans hreply

end Gateway
end VoucherGateway
