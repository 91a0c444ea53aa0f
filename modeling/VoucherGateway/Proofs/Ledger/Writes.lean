import VoucherGateway.Proofs.Ledger.Calls

/-!
# Writes — what operations write into the ledger

`Writes allowed L ok bad` says of an ending that the ledger `L` has been extended by entries of a kind, and
what holds of the answer or the error and of the ledger that is left.  Operations are followed step by step:
a step of an operation writes one entry, or nothing.
-/

namespace VoucherGateway

variable {S : Scheme} {α β : Type}

/-- Entries of a kind are written, and then `ok` or `bad` holds. -/
def Writes (allowed : Entry S → Prop) (L : Ledger S) (ok : α → Ledger S → Prop)
    (bad : Error → Ledger S → Prop) : Except Error α × Gateway S → Prop :=
  Ends (fun a g => Ledger.Trail allowed L g.ledger ∧ ok a g.ledger)
    fun e g => Ledger.Trail allowed L g.ledger ∧ bad e g.ledger

namespace Writes

variable {allowed : Entry S → Prop} {L M : Ledger S} {ok ok' : α → Ledger S → Prop}
variable {bad bad' : Error → Ledger S → Prop} {g : Gateway S}

theorem mono {r : Except Error α × Gateway S} (h : Writes allowed L ok bad r)
    (hok : ∀ a M, Ledger.Trail allowed L M → ok a M → ok' a M)
    (hbad : ∀ e M, Ledger.Trail allowed L M → bad e M → bad' e M) : Writes allowed L ok' bad' r :=
  Ends.mono h (fun a g h => ⟨h.1, hok a g.ledger h.1 h.2⟩) fun e g h => ⟨h.1, hbad e g.ledger h.1 h.2⟩

/-- What was written before counts as well. -/
theorem after {r : Except Error α × Gateway S} (ht : Ledger.Trail allowed L M)
    (h : Writes allowed M ok bad r) : Writes allowed L ok bad r :=
  Ends.mono h (fun _ _ h => ⟨ht.trans h.1, h.2⟩) fun _ _ h => ⟨ht.trans h.1, h.2⟩

/-- The ending of a single step. -/
theorem of_ends {r : Except Error α × Gateway S} {P : α → Prop} {Q : Error → Prop}
    (h : Ends (fun a g' => g'.ledger = M ∧ P a) (fun e g' => g'.ledger = L ∧ Q e) r)
    (ht : Ledger.Trail allowed L M) (hok : ∀ a, P a → ok a M) (hbad : ∀ e, Q e → bad e L) :
    Writes allowed L ok bad r := by
  refine Ends.mono h ?_ ?_
  · rintro a g ⟨rfl, ha⟩
    exact ⟨ht, hok a ha⟩
  · rintro e g ⟨rfl, he⟩
    exact ⟨.refl, hbad e he⟩

theorem of_pure {a : α} (hg : g.ledger = L) (h : ok a L) :
    Writes allowed L ok bad ((pure a : Step S α).run g) := by
  subst hg
  exact ⟨.refl, h⟩

theorem of_throw {e : Error} (hg : g.ledger = L) (h : bad e L) :
    Writes allowed L ok bad ((throw e : Step S α).run g) := by
  subst hg
  exact ⟨.refl, h⟩

/-- A change of the gateway that is one entry. -/
theorem of_post {r : Except Error α × Gateway S} {e : Entry S} {a : α} (hr : r.1 = .ok a)
    (hpost : r.2.ledger = L.post e) (he : allowed e) (ha : L.Allows e) (hok : ok a (L.post e)) :
    Writes allowed L ok bad r := by
  rcases r with ⟨_, g'⟩
  obtain rfl := hr
  have ht : Ledger.Trail allowed L g'.ledger := by
    rw [hpost]
    exact .post he ha
  exact ⟨ht, hpost ▸ hok⟩

/-! ## Steps in a row -/

variable {ok : β → Ledger S → Prop}

theorem bind {act : Step S α} {next : α → Step S β} {mid : α → Ledger S → Prop}
    (h : Writes allowed L mid bad (act.run g))
    (hn : ∀ a M, Ledger.Trail allowed L M → mid a M → ∀ g', g'.ledger = M →
      Writes allowed M ok bad ((next a).run g')) :
    Writes allowed L ok bad ((act >>= next).run g) :=
  Action.ends_bind h fun a g' h => after h.1 (hn a g'.ledger h.1 h.2 g' rfl)

/-- A step that is a part of what the next one completes to an entry. -/
theorem part {act : Step S α} {next : α → Step S β} {mid : α → Gateway S → Prop} {Q : Error → Prop}
    (h : Ends mid (fun e g' => g'.ledger = L ∧ Q e) (act.run g)) (hbad : ∀ e, Q e → bad e L)
    (hn : ∀ a g', mid a g' → Writes allowed L ok bad ((next a).run g')) :
    Writes allowed L ok bad ((act >>= next).run g) := by
  refine Action.ends_bind (Ends.mono_error h ?_) hn
  rintro e g' ⟨rfl, he⟩
  exact ⟨.refl, hbad e he⟩

/-- A step that writes at most one entry, and then others. -/
theorem step {act : Step S α} {next : α → Step S β} {P : α → Prop} {Q : Error → Prop}
    (h : Ends (fun a g' => g'.ledger = M ∧ P a) (fun e g' => g'.ledger = L ∧ Q e) (act.run g))
    (ht : Ledger.Trail allowed L M) (hbad : ∀ e, Q e → bad e L)
    (hn : ∀ a g', g'.ledger = M → P a → Writes allowed M ok bad ((next a).run g')) :
    Writes allowed L ok bad ((act >>= next).run g) :=
  part h hbad fun a g' h => after ht (hn a g' h.1 h.2)

/-! ## Operations in a row -/

theorem op_step {op : Op S α} {next : α → Op S β} {P : α → Prop} {Q : Error → Prop}
    (h : Ends (fun a g' => g'.ledger = M ∧ P a) (fun e g' => g'.ledger = L ∧ Q e) (op.run g))
    (ht : Ledger.Trail allowed L M) (hbad : ∀ e, Q e → bad e L)
    (hn : ∀ a g', g'.ledger = M → P a → Writes allowed M ok bad ((next a).run g')) :
    Writes allowed L ok bad ((op >>= next).run g) := by
  refine Op.ends_bind (Ends.mono_error h ?_) fun a g' h => after ht (hn a g' h.1 h.2)
  rintro e g' ⟨rfl, he⟩
  exact ⟨.refl, hbad e he⟩

theorem op_pure {b : β} (hg : g.ledger = L) (h : ok b L) :
    Writes allowed L ok bad ((pure b : Op S β).run g) := by
  subst hg
  exact ⟨.refl, h⟩

/-- An operation whose errors are harmless never halts anybody. -/
theorem guarding {client : S.Party} {op : Op S β} (h : Writes allowed L ok bad (op.run g))
    (hbad : ∀ e M, bad e M → e.isFatal = false) :
    Writes allowed L ok bad ((Gateway.guarding client op).run g) :=
  Op.ends_guarding _ h fun e g' h => hbad e g'.ledger h.2

end Writes

namespace Gateway

variable {g : Gateway S} {L : Ledger S}

theorem isHalted_eq_false_iff {client : S.Party} :
    g.gate.isHalted client = false ↔ g.ledger.halted.get? client = none :=
  Option.isSome_eq_false_iff.trans Option.isNone_iff_eq_none

/-- Only clients who are not halted pass the gate. -/
theorem ends_enter (client : S.Party) (hg : g.ledger = L) :
    Ends (fun _ g' => g'.ledger = L ∧ L.halted.get? client = none)
      (fun e g' => g'.ledger = L ∧ L.halted.get? client ≠ none ∧ ∃ detail, e = .clientHalted detail)
      ((enter client).run g) := by
  subst hg
  rw [Op.run_enter]
  unfold passGate
  rw [Action.run_get_bind]
  unfold Gate.pass
  cases h : g.gate.haltReason? client with
  | none => exact ⟨rfl, h⟩
  | some reason =>
    have h : g.gate.halted.get? client = some reason := h
    exact ⟨rfl, by simp [ledger, h], _, rfl⟩

end Gateway
end VoucherGateway
