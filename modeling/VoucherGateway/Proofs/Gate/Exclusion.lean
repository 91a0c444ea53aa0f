import VoucherGateway.Proofs.Gate.Realisation

/-!
# Exclusion — at most one at a time, on the one lock of the client

Locks come and go with `prune`, and still nobody is ever at a lock that the table has dropped: the table keeps
what anybody refers to.  So two entrants for one client are always at one lock, and only one of them has it.

Main statement: `exclusive_across_prune`.
-/

namespace VoucherGateway
namespace SharedGate

variable {κ ε : Type} [DecidableEq κ] [DecidableEq ε] {g : SharedGate κ ε}

/-- Whether somebody holds a client, waits for it, or has its lock at hand in order to. -/
def engaged (g : SharedGate κ ε) (c : κ) : Bool :=
  g.visits.rows.any fun r => r.2.client = c && r.2.stage.lock?.isSome

theorem Coherent.engaged_iff (h : g.Coherent) {c : κ} {n : Nat} (has : g.table.get? c = some n) :
    g.engaged c ↔ 1 < g.references n := by
  simp only [engaged, List.any_eq_true, Bool.and_eq_true, decide_eq_true_eq, Option.isSome_iff_exists,
    h.references has]
  constructor
  · rintro ⟨⟨who, v⟩, hr, rfl, k, hk⟩
    have hv := h.visitors.get?_of_mem hr
    obtain rfl : k = n := Option.some.inj ((h.mapped hv hk).symm.trans has)
    exact ⟨who, v, hv, rfl, hk⟩
  · rintro ⟨who, v, hv, hc, hn⟩
    exact ⟨(who, v), Table.mem_of_get? hv, hc, n, hn⟩

/-- The locks that nobody but the table refers to are those of the clients that nobody is engaged with. -/
theorem Coherent.prune_eq (h : g.Coherent) :
    g.prune = { g with table := g.table.keep fun c _ => g.engaged c } := by
  unfold SharedGate.prune Table.keep
  congr 2
  refine List.filter_congr fun r hr => ?_
  rw [Bool.eq_iff_iff, decide_eq_true_iff, h.engaged_iff (h.clients.get?_of_mem hr)]

/-- At rest somebody is engaged with a client who holds it or waits for it. -/
theorem Coherent.engaged_at_rest [ToString κ] (h : g.Coherent) (rest : g.Settled) (c : κ) :
    g.engaged c ↔ ∃ who, g.Holds who c ∨ g.Waits who c := by
  simp only [engaged, List.any_eq_true, Bool.and_eq_true, decide_eq_true_eq]
  constructor
  · rintro ⟨⟨who, ⟨d, s⟩⟩, hr, rfl, -⟩
    have hv := h.visitors.get?_of_mem hr
    rcases settled_iff.mp rest who _ hv with ⟨n, hs⟩ | ⟨n, hs, -⟩
    · cases hs
      exact ⟨who, .inl ⟨n, hv⟩⟩
    · cases hs
      exact ⟨who, .inr ⟨n, hv⟩⟩
  · rintro ⟨who, ⟨n, hv⟩ | ⟨n, hv⟩⟩
    · exact ⟨_, Table.mem_of_get? hv, rfl, rfl⟩
    · exact ⟨_, Table.mem_of_get? hv, rfl, rfl⟩

/-- Every client is held by one entrant at most, on the one lock that the table has for it. -/
structure Exclusive [ToString κ] (g : SharedGate κ ε) : Prop where
  alone : ∀ {x y c}, g.Holds x c → g.Holds y c → x = y
  /-- Whoever holds a client has the lock of the client. -/
  holder : ∀ {who c}, g.Holds who c → ∃ n, g.table.get? c = some n ∧ (g.locks n).holder = some who
  /-- Whoever waits for a client is at the lock of the client. -/
  waiter : ∀ {who c}, g.Waits who c → ∃ n, g.table.get? c = some n ∧ who ∈ (g.locks n).line
  /-- Nobody is at a lock but those that hold or wait for the client that has it. -/
  nobody_else : ∀ {who n}, who ∈ (g.locks n).line →
    ∃ c, g.table.get? c = some n ∧ (g.Holds who c ∨ g.Waits who c)
  /-- Pruning drops the locks of the clients that nobody is engaged with, and tells how many. -/
  prune : g.step .prune = (some (.pruned (g.table.rows.countP fun r => !g.engaged r.1)),
    { g with table := g.table.keep fun c _ => g.engaged c })
  engaged : g.Settled → ∀ c, g.engaged c ↔ ∃ who, g.Holds who c ∨ g.Waits who c

theorem Coherent.exclusive [ToString κ] (h : g.Coherent) : g.Exclusive where
  alone := by
    rintro x y c ⟨n, hx⟩ ⟨k, hy⟩
    have hn : g.table.get? c = some n := h.mapped hx rfl
    have hk : g.table.get? c = some k := h.mapped hy rfl
    obtain rfl : n = k := Option.some.inj (hn.symm.trans hk)
    exact Option.some.inj ((h.inside hx).symm.trans (h.inside hy))
  holder := by
    rintro who c ⟨n, hv⟩
    exact ⟨n, h.mapped hv rfl, h.inside hv⟩
  waiter := by
    rintro who c ⟨n, hv⟩
    exact ⟨n, h.mapped hv rfl, (h.mem_line_iff hv).mpr (.inl rfl)⟩
  nobody_else {who n} hin := by
    obtain ⟨⟨c, s⟩, hv, hs | hs⟩ := h.line.mp hin <;> cases hs
    · exact ⟨c, h.mapped hv rfl, .inr ⟨n, hv⟩⟩
    · exact ⟨c, h.mapped hv rfl, .inl ⟨n, hv⟩⟩
  prune := by
    have hcount : g.table.size - (g.table.keep fun c _ => g.engaged c).size =
        g.table.rows.countP fun r => !g.engaged r.1 := by
      have hsplit := List.length_eq_countP_add_countP (fun r => g.engaged r.1) (l := g.table.rows)
      simp only [Bool.decide_eq_true, decide_not] at hsplit
      simp only [Table.size, Table.keep, ← List.countP_eq_length_filter]
      omega
    simp only [step, h.prune_eq, hcount]
  engaged := h.engaged_at_rest

/-- However entering, leaving, giving up, halting, resuming and pruning fall, and whatever falls between the
steps of a single call: each client is held by one entrant at most, whoever holds or waits for a client does so
on the lock that the table has for it, and pruning drops just the locks of the clients with neither holder nor
waiter.  The runs of the gate are such runs, looked at whenever everybody is at rest. -/
theorem exclusive_across_prune [ToString κ] :
    (∀ ms : List (Motion κ ε), (run ms).2.Exclusive) ∧
    ∀ rs : List (Request κ ε), ∃ ms : List (Motion κ ε),
      (run ms).1 = (Gate.serve rs).1 ∧ (run ms).2.Settled ∧ (run ms).2.view = (Gate.serve rs).2 :=
  ⟨fun ms => (coherent_run ms).exclusive, realised⟩

end SharedGate
end VoucherGateway
