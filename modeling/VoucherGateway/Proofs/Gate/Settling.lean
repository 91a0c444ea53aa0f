import VoucherGateway.Proofs.Gate.Order

/-!
# Settling — how far entrants can run by themselves

Entrants left to themselves come to rest after finitely many steps, in whatever order they take them.  At rest
everybody that is about either holds a client or is in line behind somebody that does.  And a step about one
client leaves every other client alone.

Main statements: `settles`, `Coherent.awake` and `Took.elsewhere`.
-/

namespace VoucherGateway

/-- How many steps an entrant has before it at most. -/
def Stage.toGo : Stage → Nat
  | .checked => 3
  | .fetched _ => 2
  | .lined _ => 1
  | .inside _ => 0

namespace SharedGate

variable {κ ε : Type} [DecidableEq κ] [DecidableEq ε] {g g' : SharedGate κ ε}

/-- How many steps all entrants have before them at most. -/
def toGo (g : SharedGate κ ε) : Nat := (g.visits.rows.map (·.2.stage.toGo)).sum

section Rest

variable [ToString κ]

/-- An entrant's own step brings it on, or does nothing. -/
theorem Took.toGo_lt {m : Motion κ ε} {s : Option (Signal κ ε)} (t : Took g m s g') (own : m.isOwn) :
    g' = g ∨ g'.toGo < g.toGo := by
  have hseat : ∀ {who v c s}, g.visits.get? who = some v → s.toGo < v.stage.toGo →
      (g.seat who c s).toGo < g.toGo := by
    intro who v c s at_ hlt
    have hsum := Table.sum_put at_ ⟨c, s⟩ (·.stage.toGo)
    simp only [toGo, seat] at hsum ⊢
    omega
  cases t with
  | nothing => exact .inl rfl
  | fetched at_ has => exact .inr (hseat at_ (by simp [Stage.toGo]))
  | made at_ has => exact .inr (hseat at_ (by simp [Stage.toGo]))
  | joined at_ => exact .inr (hseat at_ (by simp [Stage.toGo]))
  | admitted at_ turn open_ => exact .inr (hseat at_ (by simp [Stage.toGo]))
  | @refused who c n reason at_ turn halt =>
    have hsum := Table.sum_erase at_ (·.stage.toGo)
    have hone : (⟨c, .lined n⟩ : Visit κ).stage.toGo = 1 := rfl
    exact .inr (by simp only [toGo, dismiss, forget, setLock]; omega)
  | _ => cases own

/-- Left to themselves, the entrants come to rest. -/
theorem settles (ms : List (Motion κ ε)) :
    ∃ later : List (Motion κ ε), (∀ m ∈ later, m.isOwn) ∧ (run (later ++ ms)).2.Settled := by
  induction hk : (run ms).2.toGo using Nat.strongRecOn generalizing ms with
  | ind k ih =>
    by_cases hs : (run ms).2.Settled
    · exact ⟨[], by simp, hs⟩
    · simp only [Settled, not_forall] at hs
      obtain ⟨m, own, hne⟩ := hs
      have hlt := ((took (run ms).2 m).toGo_lt own).resolve_left hne
      obtain ⟨later, hown, hrest⟩ := ih _ (hk ▸ hlt) (m :: ms) rfl
      refine ⟨later ++ [m], ?_, by simpa using hrest⟩
      intro m' hm'
      rcases List.mem_append.mp hm' with h | h
      · exact hown m' h
      · exact List.mem_singleton.mp h ▸ own

/-- At rest everybody holds a client or stands behind somebody else. -/
theorem settled_iff : g.Settled ↔ ∀ who v, g.visits.get? who = some v →
    (∃ n, v.stage = .inside n) ∨ ∃ n, v.stage = .lined n ∧ (g.locks n).holder ≠ some who := by
  constructor
  · rintro hs who ⟨c, _ | n | n | n⟩ at_
    · exfalso
      have hstep := congrArg (·.visits.get? who) (hs (.fetch who) rfl)
      simp only [step, at_] at hstep
      split at hstep <;> simp at hstep
    · exfalso
      have hstep := congrArg (·.visits.get? who) (hs (.join who) rfl)
      simp [step, at_] at hstep
    · refine .inr ⟨n, rfl, fun turn => ?_⟩
      have hstep := congrArg (·.visits.get? who) (hs (.proceed who) rfl)
      simp only [step, at_, turn, if_true] at hstep
      split at hstep <;> simp at hstep
    · exact .inl ⟨n, rfl⟩
  · intro hrest m own
    have t := took g m
    generalize (g.step m).1 = s at t
    generalize (g.step m).2 = g' at t ⊢
    cases t with
    | nothing => rfl
    | fetched at_ _ | made at_ _ | joined at_ => simpa using hrest _ _ at_
    | refused at_ turn _ | admitted at_ turn _ => simpa [turn] using hrest _ _ at_
    | _ => cases own

omit [ToString κ] in
/-- While nobody holds a client, the first that waits for it has the lock. -/
theorem Coherent.woken (h : g.Coherent) {c : κ} {who : ε} {others : List ε} (first : g.waiting c = who :: others)
    (free : ∀ x, ¬ g.Holds x c) : g.HasTurn who c := by
  obtain ⟨n, at_⟩ := h.mem_waiting_iff.mp (first ▸ List.mem_cons_self)
  have hn : g.table.get? c = some n := h.mapped at_ rfl
  have hin : who ∈ (g.locks n).line := (h.mem_line_iff at_).mpr (.inl rfl)
  cases hx : (g.locks n).holder with
  | none => simp [Lock.line, hx, h.tight n hx] at hin
  | some x =>
    have hxin : x ∈ (g.locks n).line := by simp [Lock.line, hx]
    obtain ⟨⟨d, s⟩, hv, hs⟩ := h.line.mp hxin
    rcases hs with hs | hs <;> cases hs
    · -- the lock is with somebody that waits, who is then the first
      have hw : g.isWaiting x := isWaiting_eq hv
      have hwaiting : g.waiting c = x :: (g.locks n).queue.filter g.isWaiting := by
        simp [waiting, hn, Lock.line_of_holder hx, hw]
      obtain ⟨rfl, -⟩ := List.cons.inj (first.symm.trans hwaiting)
      exact ⟨n, at_, hx⟩
    · obtain rfl : d = c := h.number_injective (h.mapped hv rfl) hn
      exact absurd ⟨n, hv⟩ (free x)

/-- At rest nobody waits for a client that nobody holds. -/
theorem Coherent.awake (h : g.Coherent) (rest : g.Settled) {who : ε} {c : κ} (waits : g.Waits who c) :
    ∃ x, g.Holds x c := by
  by_contra free
  cases hw : g.waiting c with
  | nil => simpa [hw] using h.mem_waiting_iff.mpr waits
  | cons first others =>
    obtain ⟨n, at_, hturn⟩ := h.woken hw fun x hx => free ⟨x, hx⟩
    rcases settled_iff.mp rest first _ at_ with ⟨k, hk⟩ | ⟨k, hk, hne⟩
    · cases hk
    · cases hk
      exact hne hturn

end Rest

/-! ## Other clients -/

/-- The client that a step is about. -/
def about? (g : SharedGate κ ε) : Motion κ ε → Option κ
  | .arrive _ c | .halt c _ | .resume c => some c
  | .fetch who | .join who | .proceed who | .leave who | .withdraw who => (g.visits.get? who).map (·.client)
  | .prune => none

/-- Nothing has changed about a client: who is there and how far they have come, its lock, and its halt. -/
structure Same (d : κ) (g g' : SharedGate κ ε) : Prop where
  visits : ∀ {who v}, v.client = d → (g'.visits.get? who = some v ↔ g.visits.get? who = some v)
  locks : ∀ {n}, g.table.get? d = some n → g'.locks n = g.locks n
  halted : g'.halted.get? d = g.halted.get? d

omit [DecidableEq κ] in
/-- One entrant changes, and is at another client as long as it is about. -/
theorem visits_iff (who : ε) {x : ε} {c d : κ} {v : Visit κ} (hd : c ≠ d)
    (before : ∀ w, g.visits.get? who = some w → w.client = c)
    (behind : ∀ w, g'.visits.get? who = some w → w.client = c)
    (others : ∀ x, x ≠ who → g'.visits.get? x = g.visits.get? x) (hv : v.client = d) :
    g'.visits.get? x = some v ↔ g.visits.get? x = some v := by
  by_cases e : x = who
  · subst e
    exact ⟨fun h => absurd ((behind v h).symm.trans hv) hd, fun h => absurd ((before v h).symm.trans hv) hd⟩
  · rw [others x e]

/-- A step about one client changes nothing about another. -/
theorem Took.elsewhere [ToString κ] {m : Motion κ ε} {s : Option (Signal κ ε)} (t : Took g m s g')
    (h : g.Coherent) {d : κ} (hd : g.about? m ≠ some d) : Same d g g' := by
  have hseat : ∀ {who v c s}, g.visits.get? who = some v → v.client = c → c ≠ d →
      ∀ {x w}, w.client = d → ((g.seat who c s).visits.get? x = some w ↔ g.visits.get? x = some w) := by
    intro who v c s at_ hc hne x w
    refine visits_iff who hne (fun u hu => ?_) (fun u hu => ?_) (fun x hx => by simp [hx])
    · rw [at_] at hu; cases hu; exact hc
    · simp at hu; exact hu ▸ rfl
  have hdismiss : ∀ {who v n}, g.visits.get? who = some v → v.stage = .lined n ∨ v.stage = .inside n →
      v.client ≠ d → Same d g (g.dismiss who n) := by
    intro who v n at_ hs hne
    refine ⟨?_, fun {k} hk => ?_, rfl⟩
    · refine visits_iff who hne (fun u hu => ?_) (fun u hu => ?_) (fun x hx => by simp [hx])
      · rw [at_] at hu; cases hu; rfl
      · simp at hu
    · have hlock : v.stage.lock? = some n := by rcases hs with hs | hs <;> simp [hs, Stage.lock?]
      have hkn : k ≠ n := fun e => hne (h.number_injective (h.mapped at_ hlock) (e ▸ hk))
      simp [hkn]
  cases t with
  | nothing | turnedAway => exact ⟨fun _ => .rfl, fun _ => rfl, rfl⟩
  | @arrived who c out open_ =>
    refine ⟨visits_iff who (by simpa [about?] using hd) (by simp [out]) (fun u hu => ?_) (fun x hx => by simp [hx]),
      fun _ => rfl, rfl⟩
    simp at hu; exact hu ▸ rfl
  | fetched at_ has =>
    exact ⟨hseat at_ rfl (by simpa [about?, at_] using hd), fun _ => rfl, rfl⟩
  | made at_ has =>
    exact ⟨hseat at_ rfl (by simpa [about?, at_] using hd), fun _ => rfl, rfl⟩
  | @joined who c n at_ =>
    have hne : c ≠ d := by simpa [about?, at_] using hd
    refine ⟨hseat at_ rfl hne, fun {k} hk => ?_, rfl⟩
    have hkn : k ≠ n := fun e => hne (h.number_injective (h.mapped at_ rfl) (e ▸ hk))
    simp [SharedGate.seat, hkn]
  | refused at_ turn halt => exact hdismiss at_ (.inl rfl) (by simpa [about?, at_] using hd)
  | admitted at_ turn open_ =>
    exact ⟨hseat at_ rfl (by simpa [about?, at_] using hd), fun _ => rfl, rfl⟩
  | left at_ => exact hdismiss at_ (.inr rfl) (by simpa [about?, at_] using hd)
  | withdrew at_ => exact hdismiss at_ (.inl rfl) (by simpa [about?, at_] using hd)
  | @turnedBack who v at_ early =>
    have hne : v.client ≠ d := by simpa [about?, at_] using hd
    refine ⟨visits_iff who hne (fun u hu => ?_) (by simp) (fun x hx => by simp [hx]), fun _ => rfl, rfl⟩
    rw [at_] at hu; cases hu; rfl
  | halted c reason =>
    have hne : d ≠ c := by simpa [about?, eq_comm] using hd
    exact ⟨fun _ => .rfl, fun _ => rfl, Table.get?_put_ne _ _ hne⟩
  | resumed c =>
    have hne : d ≠ c := by simpa [about?, eq_comm] using hd
    exact ⟨fun _ => .rfl, fun _ => rfl, by simp [Table.get?_erase, hne]⟩
  | pruned => exact ⟨fun _ => .rfl, fun _ => rfl, rfl⟩

/-- Nobody lines up, is admitted or goes out of line but by a step about the client. -/
theorem Took.about [ToString κ] {m : Motion κ ε} {s : Signal κ ε} (t : Took g m (some s) g') {d : κ} {who : ε}
    (hs : s.joins? d = some who ∨ s.admits? d = some who ∨ s.drops? d = some who) : g.about? m = some d := by
  cases t with
  | turnedAway | left | resumed | pruned => simp [Signal.joins?, Signal.admits?, Signal.drops?] at hs
  | joined at_ | refused at_ _ _ | admitted at_ _ _ | withdrew at_ =>
    have hd := by simpa [Signal.joins?, Signal.admits?, Signal.drops?] using hs
    simp [about?, at_, hd.1]

/-- A step about one client leaves the line for another as it is. -/
theorem Took.waiting_elsewhere [ToString κ] {m : Motion κ ε} {s : Option (Signal κ ε)} (t : Took g m s g')
    (h : g.Coherent) {d : κ} (hd : g.about? m ≠ some d) : g'.waiting d = g.waiting d := by
  have hshift := t.shift h d
  generalize hw : g'.waiting d = w at hshift
  cases hshift with
  | stays => rfl
  | joins who => exact absurd (t.about (.inl (if_pos rfl))) hd
  | admits first => exact absurd (t.about (.inr (.inl (if_pos rfl)))) hd
  | drops gone in_ => exact absurd (t.about (.inr (.inr gone))) hd

end SharedGate
end VoucherGateway
