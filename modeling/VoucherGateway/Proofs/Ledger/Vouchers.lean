import VoucherGateway.Proofs.Ledger.Admission

/-!
# Vouchers in the ledger — what the offer of a voucher writes

A voucher is offered to open a session, or to top one up.  The offer is turned away before the voucher is
looked at, or declined, or the voucher is recorded and the session written.  No error on the way is fatal.
-/

namespace VoucherGateway

variable {S : Scheme}

/-- The entries by which a voucher of a client is accepted or turned down. -/
def Entry.Admits (v : Voucher S) : Entry S → Prop
  | .recorded w => w = v
  | .refused e => e = .sessionRejected
  | e => e.Spends v.client

theorem Entry.Spends.admits {v : Voucher S} {e : Entry S} (h : e.Spends v.client) : e.Admits v := by
  cases e with
  | recorded _ => cases h
  | refused _ => cases h
  | _ => exact h

namespace Ledger

variable {L M : Ledger S} {v : Voucher S} {reading : Except String ChainSnapshot} {answering eligible : Prop}

/-- A session of the client of a voucher is open. -/
def Renews (L : Ledger S) (v : Voucher S) (id : SessionId) : Prop :=
  ∃ s, L.sessions.find? id = some s ∧ s.isOpen = true ∧ s.client = v.client

instance (L : Ledger S) (v : Voucher S) (id : SessionId) : Decidable (L.Renews v id) :=
  decidable_of_iff ((L.sessions.find? id).any fun s => s.isOpen && decide (s.client = v.client)) (by
    simp [Renews, Option.any_eq_true])

/-- An offer comes to nothing: the voucher is declined, its client is halted, or the offer is not eligible for
want of a session. -/
inductive TurnsAway (L : Ledger S) (v : Voucher S) (eligible : Prop) (reading : Except String ChainSnapshot)
    (answering : Prop) : Error → Ledger S → Prop
  | declined {e : Error} {M : Ledger S} (declines : L.Declines v reading answering e M) :
    TurnsAway L v eligible reading answering e M
  | halted {detail : String} (halt : L.halted.get? v.client ≠ none) :
    TurnsAway L v eligible reading answering (.clientHalted detail) L
  | unknown {detail : String} (ineligible : ¬ eligible) :
    TurnsAway L v eligible reading answering (.unknownSession detail) L
  | closed {detail : String} (ineligible : ¬ eligible) :
    TurnsAway L v eligible reading answering (.sessionClosed detail) L

theorem Declines.not_fatal {e : Error} (h : L.Declines v reading answering e M) : e.isFatal = false := by
  cases h with
  | unanswered outage _ => exact outage.not_fatal
  | unread _ => rfl
  | @refused chain reason _ _ => cases reason <;> rfl

theorem TurnsAway.harmless {e : Error} (h : L.TurnsAway v eligible reading answering e M) :
    e.isFatal = false ∨ ∃ detail, e = .clientHalted detail := by
  cases h with
  | declined declines => exact .inl declines.not_fatal
  | halted _ => exact .inr ⟨_, rfl⟩
  | unknown _ => exact .inl rfl
  | closed _ => exact .inl rfl

theorem TurnsAway.of_imp {e : Error} {eligible' : Prop} (h : L.TurnsAway v eligible reading answering e M)
    (himp : eligible' → eligible) : L.TurnsAway v eligible' reading answering e M := by
  cases h with
  | declined declines => exact .declined declines
  | halted halt => exact .halted halt
  | unknown ineligible => exact .unknown fun h => ineligible (himp h)
  | closed ineligible => exact .closed fun h => ineligible (himp h)

/-- Nothing but the voucher itself is in the way of an eligible offer of a client who is not halted. -/
theorem TurnsAway.declines {e : Error} (h : L.TurnsAway v eligible reading answering e M) (heligible : eligible)
    (hrun : L.halted.get? v.client = none) : L.Declines v reading answering e M := by
  cases h with
  | declined declines => exact declines
  | halted halt => exact absurd hrun halt
  | unknown ineligible => exact absurd heligible ineligible
  | closed ineligible => exact absurd heligible ineligible

/-- Nothing is left of such an offer but the count of what was turned down. -/
theorem TurnsAway.trail {e : Error} (h : L.TurnsAway v eligible reading answering e M) :
    Trail (fun e => e = .refused .sessionRejected) L M := by
  rcases h with ⟨_ | _ | _⟩ | _ | _ | _
  case declined.refused => exact .post rfl trivial
  all_goals exact .refl

theorem Accepts.trail (h : L.Accepts v reading answering M) (hL : L.Sound) : Trail (Entry.Admits v) L M := by
  obtain ⟨chain, -, hrefusal⟩ := h.acceptable
  have hrecorded : Trail (Entry.Admits v) L (L.post (.recorded v)) :=
    .post (e := .recorded v) rfl (hL.allows_recorded hrefusal)
  exact hrecorded.trans (h.recorded.widen fun _ he => he.spends.admits)

/-- While every store answers, a voucher that is accepted leaves every client calm. -/
theorem Accepts.calm_all (h : L.Accepts v reading answering M) (hL : L.Sound) (hanswering : answering)
    (hcalm : ∀ c, L.Calm c) (c : S.Party) : M.Calm c := by
  by_cases hc : v.client = c
  · exact hc ▸ h.calm hanswering (hcalm v.client)
  · refine (hcalm c).unstirred ((h.trail hL).unstirred hL (hcalm c).done fun e he hs => hc ?_)
    cases e with
    | recorded w =>
      obtain rfl : w = v := he
      exact hs
    | begun client w query => exact (show client = v.client from he).symm.trans hs
    | charged q cost => cases he
    | _ => cases hs

theorem TurnsAway.calm_all {e : Error} (h : L.TurnsAway v eligible reading answering e M) (hL : L.Sound)
    (hcalm : ∀ c, L.Calm c) (c : S.Party) : M.Calm c :=
  (hcalm c).unstirred (h.trail.unstirred hL (hcalm c).done fun _ he hs => by rw [he] at hs; exact hs)

end Ledger

namespace Gateway

variable {g : Gateway S} {L : Ledger S} {allowed : Entry S → Prop}

theorem Undisturbed.of_ledger {g' : Gateway S} {M : Ledger S} (h : g.Undisturbed g') (hg : g.ledger = M) :
    g'.ledger = M := h.ledger.trans hg

theorem undisturbed_enter (client : S.Party) (hg : g.ledger = L) :
    Ends (fun _ g' => g.Undisturbed g' ∧ L.halted.get? client = none)
      (fun e g' => g'.ledger = L ∧ L.halted.get? client ≠ none ∧ ∃ detail, e = .clientHalted detail)
      ((enter client).run g) := by
  have hrest : ((enter client).run g).2.chain = g.chain ∧ (g.Reliable → ((enter client).run g).2.Reliable) := by
    rw [Op.run_enter]
    unfold passGate
    rw [Action.run_get_bind]
    cases g.gate.pass client <;> exact ⟨rfl, id⟩
  have h := (ends_enter client hg).and
    (Ends.always (P := fun g' => g'.chain = g.chain ∧ (g.Reliable → g'.Reliable)) hrest)
  exact h.mono (fun _ _ h => ⟨⟨h.1.1.trans hg.symm, h.2.1, h.2.2⟩, h.1.2⟩) fun _ _ h => h.1

/-! ## Opening a session -/

theorem run_openSession (client : S.Party) (nonce : UInt64) (g : Gateway S) :
    (openSession client nonce).run g =
      (.ok (g.metrics.counters.told .sessionAccepted ⟨g.sessions.next⟩),
        { g with
          sessions := (g.sessions.openSession client g.vendor nonce g.now).2
          metrics := g.metrics.count .sessionAccepted }) :=
  run_report _ _ _

theorem ends_openSession (client : S.Party) (nonce : UInt64) (hg : g.ledger = L) :
    Ends (fun _ g' => ∃ time, g'.ledger = L.post (.opened client nonce time)) (fun _ _ => False)
      ((openSession client nonce).run g) := by
  subst hg
  rw [run_openSession]
  exact ⟨g.now, ledger_count { g with sessions := (g.sessions.openSession client g.vendor nonce g.now).2 } _⟩

/-- How an attempt to open a session ends. -/
theorem ends_acceptSession {v : Voucher S} (hL : L.Sound) (hg : g.ledger = L) :
    Ends
      (fun _ g' => ∃ M time, L.Accepts v (g.reading v.client) g.Reliable M ∧ L.halted.get? v.client = none ∧
        g'.ledger = M.post (.opened v.client v.nonce time))
      (fun e g' => L.TurnsAway v True (g.reading v.client) g.Reliable e g'.ledger)
      ((acceptSession v).run g) := by
  unfold acceptSession
  refine Op.ends_bind ((undisturbed_enter v.client hg).mono_error ?_) ?_
  · rintro e g' ⟨rfl, hhalt, detail, rfl⟩
    exact .halted hhalt
  rintro _ g₁ ⟨h₁, hrun⟩
  have haccept := Op.ends_guarding v.client
    (ends_acceptVoucher (v := v) hL (h₁.of_ledger hg)) fun _ _ h => h.not_fatal
  rw [h₁.reading] at haccept
  refine Op.ends_bind (haccept.mono_error fun _ _ h => .declined (h.of_imp h₁.reliable)) ?_
  rintro nonce g₂ ⟨rfl, h₂⟩
  refine (ends_openSession v.client v.nonce rfl).mono ?_ fun _ _ h => h.elim
  rintro _ g₃ ⟨time, hg₃⟩
  exact ⟨g₂.ledger, time, h₂.of_imp h₁.reliable, hrun, hg₃⟩

theorem writes_acceptSession {v : Voucher S} (hal : ∀ e, Entry.Admits v e → allowed e)
    (hopen : ∀ time, allowed (.opened v.client v.nonce time)) (hL : L.Sound) (hg : g.ledger = L) :
    Writes allowed L (fun _ _ => True)
      (fun e _ => e.isFatal = false ∨ ∃ detail, e = .clientHalted detail) ((acceptSession v).run g) := by
  refine (ends_acceptSession hL hg).mono ?_ fun _ _ h =>
    ⟨h.trail.widen fun e he => hal e (he ▸ rfl), h.harmless⟩
  rintro _ g' ⟨M, time, haccepts, -, hg'⟩
  exact ⟨((haccepts.trail hL).widen hal).tail ⟨_, hopen time, trivial, hg'⟩, trivial⟩

/-! ## Topping a session up -/

theorem run_findOpenSession (id : SessionId) (g : Gateway S) :
    (findOpenSession id).run g =
      (match g.sessions.find? id with
        | none => .error (.unknownSession id.text)
        | some s => if s.isOpen then .ok s else .error (.sessionClosed id.text), g) := by
  unfold findOpenSession
  rw [Action.run_get_bind]
  cases g.sessions.find? id with
  | none => rfl
  | some s => cases hs : s.isOpen <;> simp [hs]

/-- How an attempt to top up a session ends. -/
theorem ends_topUp (id : SessionId) {v : Voucher S} (hL : L.Sound) (hg : g.ledger = L) :
    Ends
      (fun _ g' => ∃ M time, L.Accepts v (g.reading v.client) g.Reliable M ∧ L.halted.get? v.client = none ∧
        L.Renews v id ∧ g'.ledger = M.post (.renewed id (some v.nonce) time))
      (fun e g' => L.TurnsAway v (L.Renews v id) (g.reading v.client) g.Reliable e g'.ledger)
      ((topUp id v).run g) := by
  subst hg
  have found : ∀ {s : Session S}, g.sessions.find? id = some s →
      (g.ledger.Renews v id ↔ s.isOpen = true ∧ s.client = v.client) := by
    intro s hs
    have hs : g.ledger.sessions.find? id = some s := hs
    simp [Ledger.Renews, hs]
  unfold topUp
  rw [Op.run_bind, Op.run_perform, run_findOpenSession]
  cases hs : g.sessions.find? id with
  | none =>
    have hs : g.ledger.sessions.find? id = none := hs
    exact .unknown (by simp [Ledger.Renews, hs])
  | some s =>
    dsimp only
    cases hopen : s.isOpen with
    | false => exact .closed (by simp [found hs, hopen])
    | true =>
      simp only [if_true]
      by_cases hclient : v.client = s.client
      · have hrenews : g.ledger.Renews v id := (found hs).2 ⟨hopen, hclient.symm⟩
        rw [if_neg (not_not.2 hclient), ← hclient]
        refine Op.ends_bind ((undisturbed_enter v.client rfl).mono_error ?_) ?_
        · rintro e g' ⟨hg', hhalt, detail, rfl⟩
          rw [hg']
          exact .halted hhalt
        rintro _ g₁ ⟨h₁, hrun⟩
        -- nobody has closed the session meanwhile
        have hs₁ : g₁.sessions.find? id = some s := by
          rw [show g₁.sessions = g.sessions from congrArg Ledger.sessions h₁.ledger]
          exact hs
        have hagain : (findOpenSession id).run g₁ = (.ok s, g₁) := by
          rw [run_findOpenSession, hs₁]
          simp [hopen]
        rw [Op.run_bind, Op.run_perform, hagain]
        have haccept := Op.ends_guarding v.client
          (ends_acceptVoucher (v := v) hL h₁.ledger) fun _ _ h => h.not_fatal
        rw [h₁.reading] at haccept
        refine Op.ends_bind (haccept.mono_error fun _ _ h => .declined (h.of_imp h₁.reliable)) ?_
        rintro nonce g₂ ⟨rfl, h₂⟩
        exact ⟨g₂.ledger, g₂.now, h₂.of_imp h₁.reliable, hrun, hrenews, rfl⟩
      · rw [if_pos hclient]
        exact .unknown fun h => hclient ((found hs).1 h).2.symm

theorem writes_topUp {id : SessionId} {v : Voucher S} (hal : ∀ e, Entry.Admits v e → allowed e)
    (hrenew : ∀ time, allowed (.renewed id (some v.nonce) time)) (hL : L.Sound) (hg : g.ledger = L) :
    Writes allowed L (fun _ _ => True)
      (fun e _ => e.isFatal = false ∨ ∃ detail, e = .clientHalted detail) ((topUp id v).run g) := by
  refine (ends_topUp id hL hg).mono ?_ fun _ _ h =>
    ⟨h.trail.widen fun e he => hal e (he ▸ rfl), h.harmless⟩
  rintro _ g' ⟨M, time, haccepts, -, -, hg'⟩
  exact ⟨((haccepts.trail hL).widen hal).tail ⟨_, hrenew time, trivial, hg'⟩, trivial⟩

theorem writes_closeSession {id : SessionId} (hclose : ∀ time, allowed (.closed id time))
    (hg : g.ledger = L) :
    Writes allowed L (fun _ _ => True) (fun e _ => e.isFatal = false) ((closeSession id).run g) := by
  subst hg
  unfold closeSession
  rw [Action.run_get_bind]
  cases g.sessions.find? id with
  | none => exact ⟨.refl, rfl⟩
  | some s =>
    dsimp only
    split
    · exact ⟨.post (hclose g.now) trivial, trivial⟩
    · exact ⟨.refl, trivial⟩

end Gateway
end VoucherGateway
