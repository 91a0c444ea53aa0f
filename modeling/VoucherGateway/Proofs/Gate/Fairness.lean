import VoucherGateway.Proofs.Gate.Realisation

/-!
# Fairness — first come, first served, and nobody into a halt

Whoever waits for a client gets its lock in the order of arrival and no wake-up is lost.  The halt is looked up
when the lock is theirs, not when they lined up: who comes to a halted client fails and hands the lock on, and
a halt that is lifted before anybody's turn has no effect.

Main statement: `first_come_first_served`.
-/

namespace VoucherGateway
namespace SharedGate

variable {κ ε : Type} [DecidableEq κ] [DecidableEq ε] [ToString κ] {g g' : SharedGate κ ε}

/-- What is promised of a gate of which some signals have been seen, first signal first. -/
structure Fair (seen : List (Signal κ ε)) (g : SharedGate κ ε) : Prop where
  /-- Those that were admitted, then those that wait, stand in the order in which they lined up. -/
  in_order : ∀ c, (seen.filterMap (·.admits? c) ++ g.waiting c).Sublist (seen.filterMap (·.joins? c))
  /-- Everybody that lined up was admitted, failed, gave up or waits. -/
  accounted : ∀ c, (seen.filterMap (·.joins? c)).Perm
    (seen.filterMap (·.admits? c) ++ seen.filterMap (·.drops? c) ++ g.waiting c)
  /-- While nobody holds a client, it is the turn of the first that waits for it. -/
  woken : ∀ {c who others}, g.waiting c = who :: others → (∀ x, ¬ g.Holds x c) → g.HasTurn who c
  /-- It is nobody's turn but the first one's. -/
  first : ∀ {c who}, g.HasTurn who c → ∃ others, g.waiting c = who :: others
  awake : g.Settled → ∀ {who c}, g.Waits who c → ∃ x, g.Holds x c
  /-- Nobody comes to hold a client but at its turn, and not while the client is halted. -/
  entry : ∀ {m who c}, ¬ g.Holds who c → (g.step m).2.Holds who c →
    m = .proceed who ∧ g.HasTurn who c ∧ g.halted.get? c = none
  /-- At its turn an entrant holds a client that is not halted at that time, whatever halts there were. -/
  admitted : ∀ {who c}, g.HasTurn who c → g.halted.get? c = none →
    (g.step (.proceed who)).1 = some (.admitted who c) ∧ (g.step (.proceed who)).2.Holds who c
  /-- Under a halt it fails, and the next has the turn. -/
  refused : ∀ {who c reason}, g.HasTurn who c → g.halted.get? c = some reason →
    (g.step (.proceed who)).1 = some (.refused who c (haltedError (toString c) reason)) ∧
    (g.step (.proceed who)).2.waiting c = (g.waiting c).tail ∧
    ∀ next ∈ (g.waiting c).tail.head?, (g.step (.proceed who)).2.HasTurn next c
  /-- On arrival at a halted client an entrant fails at once. -/
  turnedAway : ∀ {who c reason}, g.visits.get? who = none → g.halted.get? c = some reason →
    g.step (.arrive who c) = (some (.turnedAway who c (haltedError (toString c) reason)), g)
  /-- Whoever waits goes on waiting until it gives up or, at its turn, is admitted or refused. -/
  patient : ∀ {m who c}, g.Waits who c → (g.step m).2.Waits who c ∨ m = .withdraw who ∨
    m = .proceed who ∧ g.HasTurn who c
  /-- A step about one client changes no entrant at another, nor the line there. -/
  elsewhere : ∀ {m d}, g.about? m ≠ some d → Same d g (g.step m).2 ∧ (g.step m).2.waiting d = g.waiting d

theorem Took.entry {m : Motion κ ε} {s : Option (Signal κ ε)} (t : Took g m s g') {who : ε} {c : κ}
    (before : ¬ g.Holds who c) (behind : g'.Holds who c) :
    m = .proceed who ∧ g.HasTurn who c ∧ g.halted.get? c = none := by
  obtain ⟨n, hv⟩ := behind
  have hold : g.visits.get? who ≠ some ⟨c, .inside n⟩ := fun h => before ⟨n, h⟩
  cases t with
  | admitted at_ turn open_ =>
    rw [seat_visits] at hv
    split at hv
    next e =>
      subst e
      cases hv
      exact ⟨rfl, ⟨n, at_, turn⟩, open_⟩
    next => exact absurd hv hold
  | arrived | fetched | made | joined =>
    rw [seat_visits] at hv
    split at hv
    next => cases hv
    next => exact absurd hv hold
  | refused | left | withdrew =>
    rw [dismiss_visits] at hv
    split at hv
    next => cases hv
    next => exact absurd hv hold
  | turnedBack =>
    rw [forget_visits] at hv
    split at hv
    next => cases hv
    next => exact absurd hv hold
  | nothing | turnedAway | halted | resumed | pruned => exact absurd hv hold

theorem Took.patient {m : Motion κ ε} {s : Option (Signal κ ε)} (t : Took g m s g') {who : ε} {c : κ}
    (waits : g.Waits who c) : g'.Waits who c ∨ m = .withdraw who ∨ m = .proceed who ∧ g.HasTurn who c := by
  obtain ⟨n, hv⟩ := waits
  -- somebody else took the step, or somebody at another stage
  have hother : ∀ {x v}, g.visits.get? x = some v → v.stage ≠ .lined n → who ≠ x := by
    rintro x v hx hs rfl
    rw [hv] at hx
    cases hx
    exact hs rfl
  cases t with
  | nothing | turnedAway | halted | resumed | pruned => exact .inl ⟨n, hv⟩
  | @arrived x d out open_ =>
    have hne : who ≠ x := fun e => by rw [e, out] at hv; cases hv
    exact .inl ⟨n, by rw [seat_visits, if_neg hne]; exact hv⟩
  | fetched at_ | made at_ | joined at_ =>
    have hne := hother at_ nofun
    exact .inl ⟨n, by rw [seat_visits, if_neg hne]; exact hv⟩
  | left at_ =>
    have hne := hother at_ nofun
    exact .inl ⟨n, by rw [dismiss_visits, if_neg hne]; exact hv⟩
  | turnedBack at_ early =>
    have hne := hother at_ fun hs => by rcases early with h | ⟨k, h⟩ <;> rw [hs] at h <;> cases h
    exact .inl ⟨n, by rw [forget_visits, if_neg hne]; exact hv⟩
  | @withdrew x d k at_ =>
    by_cases e : who = x
    · exact .inr (.inl (e ▸ rfl))
    · exact .inl ⟨n, by rw [dismiss_visits, if_neg e]; exact hv⟩
  | @refused x d k reason at_ turn halt =>
    by_cases e : who = x
    · subst e
      rw [hv] at at_
      cases at_
      exact .inr (.inr ⟨rfl, n, hv, turn⟩)
    · exact .inl ⟨n, by rw [dismiss_visits, if_neg e]; exact hv⟩
  | @admitted x d k at_ turn open_ =>
    by_cases e : who = x
    · subst e
      rw [hv] at at_
      cases at_
      exact .inr (.inr ⟨rfl, n, hv, turn⟩)
    · exact .inl ⟨n, by rw [seat_visits, if_neg e]; exact hv⟩

omit [ToString κ] in
/-- Nobody holds a client whose lock is with somebody that waits. -/
theorem Coherent.free_of_turn (h : g.Coherent) {who x : ε} {c : κ} (turn : g.HasTurn who c) : ¬ g.Holds x c := by
  rintro ⟨k, hx⟩
  obtain ⟨n, hv, hh⟩ := turn
  have hn : g.table.get? c = some n := h.mapped hv rfl
  have hk : g.table.get? c = some k := h.mapped hx rfl
  obtain rfl : n = k := Option.some.inj (hn.symm.trans hk)
  obtain rfl : who = x := Option.some.inj (hh.symm.trans (h.inside hx))
  rw [hv] at hx
  cases hx

theorem Coherent.refused (h : g.Coherent) {who : ε} {c : κ} {reason : String} (turn : g.HasTurn who c)
    (halt : g.halted.get? c = some reason) :
    (g.step (.proceed who)).1 = some (.refused who c (haltedError (toString c) reason)) ∧
    (g.step (.proceed who)).2.waiting c = (g.waiting c).tail ∧
    ∀ next ∈ (g.waiting c).tail.head?, (g.step (.proceed who)).2.HasTurn next c := by
  obtain ⟨n, at_, hh⟩ := turn
  obtain ⟨rest, hrest⟩ := h.waiting_of_turn ⟨n, at_, hh⟩
  have hstep : g.step (.proceed who) =
      (some (.refused who c (haltedError (toString c) reason)), g.dismiss who n) := by
    simp [step, at_, hh, halt]
  have hline : (g.dismiss who n).waiting c = rest := by
    rw [h.waiting_dismiss, hrest, filter_first (hrest ▸ h.nodup_waiting c)]
  rw [hstep]
  refine ⟨rfl, by rw [hline, hrest]; rfl, fun next hnext => ?_⟩
  cases rest with
  | nil => rw [hrest] at hnext; cases hnext
  | cons x others =>
    obtain rfl : x = next := by simpa [hrest] using hnext
    refine (h.dismiss at_ (.inl rfl)).woken hline ?_
    rintro y ⟨k, hy⟩
    rw [dismiss_visits] at hy
    split at hy
    next => cases hy
    next => exact h.free_of_turn ⟨n, at_, hh⟩ ⟨k, hy⟩

theorem fair_run (ms : List (Motion κ ε)) : Fair (run ms).1 (run ms).2 where
  in_order := in_order_run ms
  accounted := accounted_run ms
  woken := (coherent_run ms).woken
  first := (coherent_run ms).waiting_of_turn
  awake := (coherent_run ms).awake
  entry := (took _ _).entry
  admitted := by
    rintro who c ⟨n, at_, hh⟩ open_
    simp only [step, at_, hh, open_, if_true, true_and]
    exact ⟨n, seat_visits_self ..⟩
  refused := (coherent_run ms).refused
  turnedAway out halt := by simp [step, Table.has, out, halt]
  patient := (took _ _).patient
  elsewhere {m d} hd :=
    ⟨(took _ m).elsewhere (coherent_run ms) hd, (took _ m).waiting_elsewhere (coherent_run ms) hd⟩

/-- However entering, leaving, giving up, halting, resuming and pruning fall, and whatever falls between the
steps of a single call: waiters are served in order of arrival, nobody waits at rest for a client that nobody
holds, a halt is seen on arrival and again when the turn comes, and clients do not disturb each other.  Left to
themselves, the entrants come to rest.  The runs of the gate are such runs, looked at whenever everybody is at
rest. -/
theorem first_come_first_served :
    (∀ ms : List (Motion κ ε), Fair (run ms).1 (run ms).2) ∧
    (∀ ms : List (Motion κ ε), ∃ later : List (Motion κ ε), (∀ m ∈ later, m.isOwn) ∧
      (run (later ++ ms)).2.Settled) ∧
    ∀ rs : List (Request κ ε), ∃ ms : List (Motion κ ε),
      (run ms).1 = (Gate.serve rs).1 ∧ (run ms).2.Settled ∧ (run ms).2.view = (Gate.serve rs).2 :=
  ⟨fair_run, settles, realised⟩

-- A halt that is lifted before the turn of a waiter does not keep it out.
example : (Gate.serve ([.release 1, .resume 7, .halt 7 "audit", .enter 2 7, .enter 1 7] :
    List (Request Nat Nat))).1 =
    [.joined 1 7, .admitted 1 7, .joined 2 7, .resumed 7 true, .left 1 7, .admitted 2 7] := by
  decide

end SharedGate
end VoucherGateway
