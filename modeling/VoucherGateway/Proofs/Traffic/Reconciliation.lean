import VoucherGateway.Proofs.Traffic.Basic
import VoucherGateway.Proofs.Traffic.Counting

/-!
# Reconciliation — the counters agree with the tables

Every stretch of every call keeps the books, and so does whatever happens between two stretches.  The counters
wrap around at 2^64, and so all counts are compared modulo 2^64.

Main statement: whatever happens at a gateway whose counters began at zero, they agree with its tables and with
what its callers were told (`counters_reconcile`).
-/

namespace VoucherGateway

variable {S : Scheme}

namespace Traffic

/-- The refusals that callers were told of. -/
def refusals (t : Traffic S) : Refusals where
  vouchers := t.finished.countP fun f => f.1.rejectsVoucher f.2
  queries := t.finished.countP fun f => f.1.refusesQuery f.2

/-- The books are kept, and will be by the calls under way. -/
structure Balanced (t : Traffic S) : Prop where
  books : t.gateway.tally.Reconciled t.refusals
  waiting : ∀ w ∈ t.waiting, Op.Tallies (fun e => w.1.refusals (.error e)) w.2

/-- The counters agree with the tables and with what the callers were told. -/
structure Reconciles (t : Traffic S) : Prop where
  sessions : t.gateway.metrics.counters.sessionsAccepted - t.gateway.metrics.counters.sessionsClosed =
    UInt64.ofNat t.gateway.sessions.openCount
  queries : t.gateway.metrics.counters.queriesLocked =
    t.gateway.metrics.counters.queriesSettled + t.gateway.metrics.counters.queriesAborted +
      t.gateway.metrics.counters.queriesForceAborted + UInt64.ofNat t.gateway.queries.lockedCount
  rejected : t.gateway.metrics.counters.sessionsRejected =
    UInt64.ofNat (t.finished.countP fun f => f.1.rejectsVoucher f.2)
  refused : t.gateway.metrics.counters.queriesRejected =
    UInt64.ofNat (t.finished.countP fun f => f.1.refusesQuery f.2)

variable {t : Traffic S}

theorem Balanced.reconciles (h : t.Balanced) : t.Reconciles where
  sessions := by
    have hopened : t.gateway.metrics.counters.sessionsAccepted = _ := h.books.opened
    rw [hopened, SessionTable.openCount_eq, UInt64.add_comm]
    exact UInt64.add_sub_cancel ..
  queries := by
    rw [QueryTable.lockedCount_eq]
    exact h.books.locked
  rejected := h.books.vouchers
  refused := h.books.refused

/-- One more call has ended. -/
theorem refusals_finished (t : Traffic S) (g : Gateway S) (waiting : List (Call S × Op S (Reply S)))
    (call : Call S) (outcome : Except Error (Reply S)) :
    refusals { gateway := g, waiting := waiting, finished := (call, outcome) :: t.finished } =
      t.refusals + call.refusals outcome := by
  have one : ∀ b : Bool, (if b = true then 1 else 0) = b.toNat := by decide
  simp only [refusals, List.countP_cons, one]
  rfl

theorem Balanced.resume (h : t.Balanced) (place : Nat) : (t.resume place).Balanced := by
  unfold Traffic.resume
  cases hplace : t.waiting[place]? with
  | none => exact h
  | some w =>
    obtain ⟨call, op⟩ := w
    have hop := h.waiting _ (List.mem_of_getElem? hplace) t.gateway
    dsimp only at hop ⊢
    cases hp : op t.gateway with
    | ended outcome g =>
      rw [hp] at hop
      refine ⟨?_, fun w hw => h.waiting w (List.mem_of_mem_eraseIdx hw)⟩
      rw [refusals_finished]
      cases outcome with
      | ok reply =>
        have hnone : call.refusals (.ok reply) = 0 := by cases call <;> rfl
        rw [hnone]
        exact hop _ h.books
      | error e => exact hop _ h.books
    | waiting reason g rest =>
      rw [hp] at hop
      refine ⟨hop.1 _ h.books, fun w hw => ?_⟩
      rcases List.mem_or_eq_of_mem_set hw with hw | rfl
      · exact h.waiting w hw
      · exact hop.2

/-- Whatever happens, the books are kept. -/
theorem Balanced.step (h : t.Balanced) (o : Occurrence S) : (t.step o).Balanced := by
  cases o with
  | called call =>
    refine ⟨h.books, fun w hw => ?_⟩
    rcases List.mem_append.1 hw with hw | hw
    · exact h.waiting w hw
    · rw [List.mem_singleton.1 hw]
      exact call.tallies_op
  | resumed place => exact h.resume place
  | abandoned place => exact ⟨h.books, fun w hw => h.waiting w (List.mem_of_mem_eraseIdx hw)⟩
  | moved world => exact ⟨h.books, h.waiting⟩
  | altered vouchers unmarked balances settlement => exact ⟨h.books, h.waiting⟩

theorem Balanced.run (h : t.Balanced) (os : List (Occurrence S)) : (t.run os).Balanced := by
  induction os with
  | nil => exact h
  | cons o earlier ih => exact ih.step o

end Traffic

namespace Gateway

/-- Whatever happens at a gateway whose counters began at zero, and in whatever order the operations under way go
on: the sessions accepted less those closed are the open ones, the queries locked are those settled, aborted and
forced to abort together with those still locked, and the two counters of refusals say how many offers of vouchers
were rejected and how many queries refused for want of credit or of a subscription.  So it is in particular when
calls are made one after another. -/
theorem counters_reconcile (vendor : S.Party) (config : GatewayConfig) (persistent : Bool) (file : CounterFile) :
    let start : Gateway S := fresh vendor config { persistent := persistent, file := file }
    (∀ os, (({ gateway := start } : Traffic S).run os).Reconciles) ∧
    ∀ episodes,
      ({ gateway := start.live episodes, finished := start.outcomes episodes } : Traffic S).Reconciles := by
  intro start
  have hstart : ({ gateway := start } : Traffic S).Balanced :=
    ⟨Tally.reconciled_empty, fun _ hw => (List.not_mem_nil hw).elim⟩
  refine ⟨fun os => (hstart.run os).reconciles, fun episodes => ?_⟩
  obtain ⟨os, hos⟩ := exists_traffic_of_live start episodes
  exact hos ▸ (hstart.run os).reconciles

end Gateway
end VoucherGateway
