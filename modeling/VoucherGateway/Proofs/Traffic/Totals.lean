import VoucherGateway.Proofs.Traffic.Idle

/-!
# Totals — what decides whether recording panics

Of two counters the total is reported when they are added to, and a call panics where it does not fit.  Nothing
else adds to these two.  So the totals that stand when an operation begins are those that its report goes by,
whatever is counted in between: all other steps are *silent*.
-/

namespace VoucherGateway

open VoucherGateway.Action

variable {S : Scheme} {α : Type}

/-- The counters whose totals are reported. -/
def Counters.totals (c : Counters) : UInt64 × Atoms := (c.sessionsAccepted, c.atomsSettled)

theorem Counters.totals_count (c : Counters) {e : Event} (he : e.isKept = false) : (c.count e).totals = c.totals := by
  cases e with
  | sessionAccepted => cases he
  | querySettled _ => cases he
  | queryAborted forced => cases forced <;> rfl
  | _ => rfl

/-- Nothing else decides whether a total runs over. -/
theorem Counters.runsOver_congr {c c' : Counters} (h : c'.totals = c.totals) (e : Event) :
    c'.runsOver e = c.runsOver e := by
  obtain ⟨hsessions, hatoms⟩ := Prod.mk.inj h
  cases e with
  | sessionAccepted => simp only [runsOver, hsessions]
  | querySettled atoms => simp only [runsOver, hatoms]
  | _ => rfl

theorem Counters.told_congr {c c' : Counters} (h : c'.totals = c.totals) (e : Event) (answer : α) :
    c'.told e answer = c.told e answer := by
  unfold told
  rw [runsOver_congr h e]

namespace Gateway

variable (client vendor : S.Party)

/-- The counters whose totals are reported. -/
abbrev totals (g : Gateway S) : UInt64 × Atoms := g.metrics.counters.totals

/-- A step that leaves the totals alone. -/
abbrev Silent (t : UInt64 × Atoms) (act : Step S α) : Prop :=
  Confined (fun g : Gateway S => g.totals = t) (fun _ => True) act

variable {t : UInt64 × Atoms}

theorem silent_of_idle {act : Step S α} (h : ∀ T, Idle T act) : Silent t act := by
  rintro g rfl
  have same : ∀ {g' : Gateway S}, g'.tally = g.tally → g'.totals = g.totals := fun hg' =>
    congrArg (fun T : Tally => T.counters.totals) hg'
  exact (h g.tally g rfl).mono (fun _ _ hg' => same hg') fun _ _ hg' => ⟨same hg'.1, trivial⟩

theorem silent_count {e : Event} (he : e.isKept = false) : Silent (S := S) t (count e) := by
  rintro g rfl
  exact (congrArg Counters.totals (Metrics.counters_count _ e)).trans (g.metrics.counters.totals_count he)

theorem silent_reject (reason : Rejection) : Silent t (reject reason : Step S α) :=
  (silent_count rfl).bind fun _ => .throw trivial

theorem silent_recordVoucher (v : Voucher S) (prior : UInt64) (chain : ChainSnapshot) :
    Silent t (recordVoucher v prior chain) := by
  refine .get_bind fun g _ => Confined.bind (silent_of_idle fun _ => idle_validate _ v _ prior chain) fun verdict => ?_
  cases verdict with
  | rejected reason => exact silent_reject reason
  | accepted =>
    refine Confined.bind (silent_of_idle fun _ => idle_readUnmarked v.client) fun arrears => ?_
    refine Confined.bind (silent_of_idle fun _ => idle_onVouchers (VoucherStore.willing_insert v)) fun added => ?_
    exact .ite (silent_reject _)
      (.ite (Confined.bind (silent_of_idle fun _ => idle_absorbArrears _ _) fun _ => .pure _) (.pure _))

theorem silent_issueReceipt (id : QueryId) (cost : Atoms) (partlyUsed : Option (VoucherId S))
    (creditAfter : CreditState) : Silent t (issueReceipt id cost partlyUsed creditAfter) :=
  .get_bind fun _ _ => Confined.bind (silent_of_idle fun _ => idle_findQuery id) fun _ =>
    Confined.bind (.give fun _ _ => trivial) fun _ => .bind (.update fun _ hg => hg) fun _ => .pure _

/-! ### Operations -/

/-- However an operation ends, the totals are those of before. -/
def SilentOp (t : UInt64 × Atoms) (op : Op S α) : Prop := ∀ g : Gateway S, g.totals = t → (op.run g).2.totals = t

theorem silentOp_perform {act : Step S α} (h : Silent t act) : SilentOp t (perform act) := fun _ => h.keeps

theorem SilentOp.bind {β : Type} {op : Op S α} {next : α → Op S β} (h : SilentOp t op)
    (hn : ∀ a, SilentOp t (next a)) : SilentOp t (op >>= next) := by
  intro g hg
  have h := h g hg
  rw [Op.run_bind]
  rcases hr : op.run g with ⟨e | a, g'⟩ <;> rw [hr] at h
  · exact h
  · exact hn a g' h

theorem SilentOp.get_bind {next : Gateway S → Op S α} (hn : ∀ g, SilentOp t (next g)) :
    SilentOp t (get >>= next) := fun g hg => hn g g hg

theorem silentOp_enter : SilentOp t (enter client) := by
  intro g hg
  rw [Op.run_enter]
  exact silentOp_perform (silent_of_idle fun _ => idle_passGate client) g hg

theorem silentOp_readChain : SilentOp t (readChain client vendor) := by
  intro g hg
  rw [Op.run_readChain]
  exact hg

theorem silentOp_acceptVoucher (v : Voucher S) : SilentOp t (acceptVoucher v) :=
  (silentOp_perform (silent_of_idle fun _ => idle_priorNonce v.client)).bind fun _ => .get_bind fun _ =>
    (silentOp_readChain v.client _).bind fun _ => silentOp_perform (silent_recordVoucher v _ _)

theorem silentOp_guarding {op : Op S α} (h : SilentOp t op) : SilentOp t (guarding client op) := by
  intro g hg
  have h := h g hg
  rw [Op.run_guarding]
  rcases hr : op.run g with ⟨e | a, g'⟩ <;> rw [hr] at h
  · change (haltFor client e g').totals = t
    unfold haltFor
    split <;> exact h
  · exact h

end Gateway
end VoucherGateway
