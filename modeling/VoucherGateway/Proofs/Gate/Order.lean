import VoucherGateway.Proofs.Gate.Coherence

/-!
# Order — the line at a client, read off what was seen

Everybody that lines up for a client is admitted, fails or gives up, or is still in line, and those that were
admitted come before those still in line, all in the order in which they lined up.

Main statements: `in_order_run` and `accounted_run`.
-/

namespace VoucherGateway

/-- Has the lock or is in line for it. -/
def Stage.isLined : Stage → Bool
  | .lined _ => true
  | _ => false

namespace Signal

variable {κ ε : Type} [DecidableEq κ]

/-- Who lines up for a client. -/
def joins? (c : κ) : Signal κ ε → Option ε
  | .joined who d => if d = c then some who else none
  | _ => none

/-- Who is admitted to a client. -/
def admits? (c : κ) : Signal κ ε → Option ε
  | .admitted who d => if d = c then some who else none
  | _ => none

/-- Who goes out of line for a client, failed or by itself. -/
def drops? (c : κ) : Signal κ ε → Option ε
  | .refused who d _ | .withdrew who d => if d = c then some who else none
  | _ => none

theorem of_drops? {s : Signal κ ε} {c : κ} {who : ε} (h : s.drops? c = some who) :
    s.joins? c = none ∧ s.admits? c = none := by
  cases s <;> first | exact ⟨rfl, rfl⟩ | cases h

/-- Those that wait for a client after a signal. -/
def track [DecidableEq ε] (c : κ) : Signal κ ε → List ε → List ε
  | .joined who d, w => if d = c then w ++ [who] else w
  | .admitted who _, w | .refused who _ _, w | .withdrew who _, w => w.filter (· ≠ who)
  | _, w => w

end Signal

namespace SharedGate

variable {κ ε : Type} [DecidableEq κ] [DecidableEq ε] {g g' : SharedGate κ ε}

/-- Whether an entrant is in line, or has the lock and has not looked for a halt yet. -/
def isWaiting (g : SharedGate κ ε) (who : ε) : Bool := (g.visits.get? who).any (·.stage.isLined)

/-- Those that wait for a client, first come first. -/
def waiting (g : SharedGate κ ε) (c : κ) : List ε :=
  match g.table.get? c with
  | some n => (g.locks n).line.filter g.isWaiting
  | none => []

/-- It is an entrant's turn: it has the lock and has not looked for a halt yet. -/
def HasTurn (g : SharedGate κ ε) (who : ε) (c : κ) : Prop :=
  ∃ n, g.visits.get? who = some ⟨c, .lined n⟩ ∧ (g.locks n).holder = some who

omit [DecidableEq κ] in
theorem isWaiting_iff {who : ε} : g.isWaiting who ↔ ∃ c, g.Waits who c := by
  simp only [isWaiting, Waits, Option.any_eq_true]
  constructor
  · rintro ⟨⟨c, _ | _ | n | _⟩, hv, hs⟩ <;> first | exact ⟨c, n, hv⟩ | cases hs
  · rintro ⟨c, n, hv⟩
    exact ⟨_, hv, rfl⟩

omit [DecidableEq κ] in
theorem Waits.client {who : ε} {c d : κ} (hc : g.Waits who c) (hd : g.Waits who d) : c = d := by
  obtain ⟨n, hn⟩ := hc
  obtain ⟨k, hk⟩ := hd
  rw [hn] at hk
  cases hk
  rfl

namespace Coherent

theorem mem_waiting_iff (h : g.Coherent) {who : ε} {c : κ} : who ∈ g.waiting c ↔ g.Waits who c := by
  constructor
  · intro hw
    unfold waiting at hw
    split at hw
    next n hn =>
      obtain ⟨hline, hwait⟩ := List.mem_filter.mp hw
      obtain ⟨d, k, hv⟩ := isWaiting_iff.mp hwait
      have hk : k = n := by simpa using (h.mem_line_iff hv).mp hline
      subst hk
      have hd := h.number_injective (h.mapped hv rfl) hn
      exact ⟨k, hd ▸ hv⟩
    next => cases hw
  · rintro ⟨n, hv⟩
    have hn := h.mapped hv rfl
    simp only at hn
    rw [waiting, hn]
    exact List.mem_filter.mpr ⟨(h.mem_line_iff hv).mpr (.inl rfl), isWaiting_iff.mpr ⟨c, n, hv⟩⟩

theorem nodup_waiting (h : g.Coherent) (c : κ) : (g.waiting c).Nodup := by
  unfold waiting
  split
  next n hn => exact (h.distinct n).filter _
  next => exact List.nodup_nil

/-- Whose turn it is comes first of all that wait. -/
theorem waiting_of_turn (h : g.Coherent) {who : ε} {c : κ} (turn : g.HasTurn who c) :
    ∃ rest, g.waiting c = who :: rest := by
  obtain ⟨n, hv, hh⟩ := turn
  have hn := h.mapped hv rfl
  simp only at hn
  have hw : g.isWaiting who := isWaiting_iff.mpr ⟨c, n, hv⟩
  exact ⟨(g.locks n).queue.filter g.isWaiting, by simp [waiting, hn, Lock.line_of_holder hh, hw]⟩

end Coherent

/-! ## What a step does to those that wait -/

/-- The same lines, and the same of each line wait. -/
theorem waiting_congr {c : κ} (ht : g'.table.get? c = g.table.get? c)
    (hw : ∀ n, g.table.get? c = some n →
      (g'.locks n).line.filter g'.isWaiting = (g.locks n).line.filter g.isWaiting) :
    g'.waiting c = g.waiting c := by
  unfold waiting
  rw [ht]
  split
  next n hn => exact hw n hn
  next => rfl

omit [DecidableEq κ] in
theorem isWaiting_seat (g : SharedGate κ ε) (who x : ε) (c : κ) (s : Stage) :
    (g.seat who c s).isWaiting x = if x = who then s.isLined else g.isWaiting x := by
  rw [isWaiting, seat_visits]
  split <;> rfl

omit [DecidableEq κ] in
theorem isWaiting_forget (g : SharedGate κ ε) (who x : ε) :
    (g.forget who).isWaiting x = if x = who then false else g.isWaiting x := by
  rw [isWaiting, forget_visits]
  split <;> rfl

omit [DecidableEq κ] in
theorem isWaiting_eq {who : ε} {v : Visit κ} (at_ : g.visits.get? who = some v) :
    g.isWaiting who = v.stage.isLined := by
  simp [isWaiting, at_]

/-- An entrant that does not wait comes or moves on without lining up. -/
theorem waiting_seat {who : ε} {s : Stage} (hs : s.isLined = false) (hw : g.isWaiting who = false)
    (c d : κ) : (g.seat who c s).waiting d = g.waiting d := by
  refine waiting_congr rfl fun n _ => List.filter_congr fun x _ => ?_
  rw [isWaiting_seat]
  split
  next e => rw [e, hs, hw]
  next => rfl

theorem waiting_forget {who : ε} (hw : g.isWaiting who = false) (d : κ) :
    (g.forget who).waiting d = g.waiting d := by
  refine waiting_congr rfl fun n _ => List.filter_congr fun x _ => ?_
  rw [isWaiting_forget]
  split
  next e => rw [e, hw]
  next => rfl

/-- An entrant waits no more, whether it keeps the lock or not. -/
theorem waiting_depart {who : ε} (ht : g'.table = g.table)
    (hw : ∀ x, g'.isWaiting x = if x = who then false else g.isWaiting x)
    (hl : ∀ n, (g'.locks n).line = (g.locks n).line ∨
      (g'.locks n).line = (g.locks n).line.filter (· ≠ who)) (d : κ) :
    g'.waiting d = (g.waiting d).filter (· ≠ who) := by
  have hsplit : ∀ l : List ε, l.filter g'.isWaiting = (l.filter g.isWaiting).filter (· ≠ who) := by
    intro l
    rw [List.filter_filter]
    refine List.filter_congr fun x _ => ?_
    rw [hw]
    by_cases e : x = who <;> simp [e]
  unfold waiting
  rw [ht]
  cases g.table.get? d with
  | none => rfl
  | some n =>
    rcases hl n with h | h
    · simp only [h, hsplit]
    · simp only [h, hsplit]
      rw [List.filter_filter, List.filter_filter, List.filter_filter]
      exact List.filter_congr fun x _ => by cases g.isWaiting x <;> simp

namespace Coherent

theorem waiting_dismiss (h : g.Coherent) (who : ε) (n : Nat) (d : κ) :
    (g.dismiss who n).waiting d = (g.waiting d).filter (· ≠ who) := by
  have hw := isWaiting_forget (g.setLock n ((g.locks n).part who)) who
  refine waiting_depart (show (g.dismiss who n).table = g.table from rfl) hw (fun k => ?_) d
  rw [dismiss_locks]
  split
  next e => subst e; exact .inr (Lock.line_part (h.distinct k) who)
  next => exact .inl rfl

theorem waiting_make (h : g.Coherent) {c : κ} (has : g.table.get? c = none) (d : κ) :
    (g.make c).waiting d = g.waiting d := by
  unfold waiting
  rw [make_table]
  by_cases e : d = c
  · subst e
    simp [has, SharedGate.make, h.locks_made, Lock.line]
  · simp only [e, if_false]
    rfl

theorem waiting_joined (h : g.Coherent) {who : ε} {c : κ} {n : Nat}
    (at_ : g.visits.get? who = some ⟨c, .fetched n⟩) (d : κ) :
    ((g.setLock n ((g.locks n).join who)).seat who c (.lined n)).waiting d =
      if c = d then g.waiting d ++ [who] else g.waiting d := by
  have hn := h.mapped at_ rfl
  simp only at hn
  have hsame : ∀ {k}, who ∉ (g.locks k).line →
      (g.locks k).line.filter ((g.setLock n ((g.locks n).join who)).seat who c (.lined n)).isWaiting =
        (g.locks k).line.filter g.isWaiting := fun hout =>
    List.filter_congr fun x hx => by
      have hne : x ≠ who := fun e => hout (e ▸ hx)
      rw [isWaiting_seat, if_neg hne]
      rfl
  have hout : ∀ k, who ∉ (g.locks k).line := fun k => by simp [h.mem_line_iff at_]
  split
  next e =>
    subst e
    have hline : (((g.setLock n ((g.locks n).join who)).seat who c (.lined n)).locks n).line =
        (g.locks n).line ++ [who] := by
      simp [SharedGate.seat, Lock.line_join (h.tight n)]
    show (match g.table.get? c with | some n => _ | none => _) = _
    rw [hn]
    simp only [hline, List.filter_append, hsame (hout n), waiting, hn]
    simp [isWaiting_seat, Stage.isLined]
  next hne =>
    refine waiting_congr rfl fun k hk => ?_
    have hkn : k ≠ n := fun e => hne (h.number_injective hn (e ▸ hk))
    have hlock : ((g.setLock n ((g.locks n).join who)).seat who c (.lined n)).locks k = g.locks k := by
      simp [SharedGate.seat, hkn]
    rw [hlock, hsame (hout k)]

theorem waiting_prune (h : g.Coherent) (d : κ) : g.prune.waiting d = g.waiting d := by
  have hkeep : g.prune.table.get? d =
      (g.table.get? d).filter fun n => decide (1 < g.references n) := h.clients.get?_keep _ d
  cases hd : g.table.get? d with
  | none => simp [waiting, hkeep, hd]
  | some n =>
    by_cases hr : 1 < g.references n
    · have hsame : g.prune.table.get? d = some n := by simp [hkeep, hd, hr]
      simp only [waiting, hsame, hd]
      rfl
    · -- nobody else refers to the lock, so nobody is in line there
      have hnone : g.prune.table.get? d = none := by simpa [hkeep, hd] using Nat.le_of_not_lt hr
      have hempty : (g.locks n).line = [] := by
        refine List.eq_nil_iff_forall_not_mem.mpr fun x hx => hr ((h.references hd).mpr ?_)
        obtain ⟨v, hv, hlock⟩ := h.visit_of_line hx
        exact ⟨x, v, hv, h.number_injective (h.mapped hv hlock) hd, hlock⟩
      simp [waiting, hnone, hd, hempty]

end Coherent

section Runs

variable [ToString κ]

/-- Those that wait after a step are told by what was seen of it. -/
theorem Took.waiting {m : Motion κ ε} {s : Option (Signal κ ε)} (t : Took g m s g') (h : g.Coherent) (d : κ) :
    g'.waiting d = s.elim (g.waiting d) fun s => s.track d (g.waiting d) := by
  cases t with
  | nothing | turnedAway | halted | resumed => rfl
  | arrived out open_ => exact waiting_seat rfl (by simp [isWaiting, out]) ..
  | fetched at_ has => exact waiting_seat rfl (isWaiting_eq at_) ..
  | @made who c at_ has =>
    have at' : (g.make c).visits.get? who = some ⟨c, .checked⟩ := at_
    exact (waiting_seat rfl (isWaiting_eq at') ..).trans (h.waiting_make has d)
  | joined at_ => exact h.waiting_joined at_ d
  | refused at_ turn halt => exact h.waiting_dismiss ..
  | @admitted who c n at_ turn open_ =>
    have hsame : (g.seat who c (.inside n)).table = g.table := rfl
    exact waiting_depart hsame (isWaiting_seat g who · c (.inside n)) (fun _ => .inl rfl) d
  | @left who c n at_ =>
    have hout : who ∉ g.waiting d := fun hin => by
      have hw := isWaiting_iff.mpr ⟨d, h.mem_waiting_iff.mp hin⟩
      rw [isWaiting_eq at_] at hw
      cases hw
    have hne : ∀ x ∈ g.waiting d, x ≠ who := fun x hx e => hout (e ▸ hx)
    exact (h.waiting_dismiss who n d).trans
      (List.filter_eq_self.mpr fun x hx => by simpa using hne x hx)
  | withdrew at_ => exact h.waiting_dismiss ..
  | @turnedBack who v at_ early =>
    refine waiting_forget ?_ d
    rw [isWaiting_eq at_]
    rcases early with hs | ⟨n, hs⟩ <;> rw [hs] <;> rfl
  | pruned => exact h.waiting_prune d

omit [DecidableEq κ] [ToString κ] in
/-- The first goes out of a line in which nobody stands twice. -/
theorem filter_first {who : ε} {rest : List ε} (h : (who :: rest).Nodup) :
    (who :: rest).filter (· ≠ who) = rest := by
  have hne : ∀ x ∈ rest, x ≠ who := fun x hx e => (List.nodup_cons.mp h).1 (e ▸ hx)
  rw [List.filter_cons_of_neg (by simp)]
  exact List.filter_eq_self.mpr fun x hx => by simpa using hne x hx

/-- How the line for a client goes on with what was seen of a step. -/
inductive Shift (c : κ) (w : List ε) : Option (Signal κ ε) → List ε → Prop
  | stays {s : Option (Signal κ ε)}
      (other : ∀ x ∈ s, x.joins? c = none ∧ x.admits? c = none ∧ x.drops? c = none) : Shift c w s w
  | joins (who : ε) : Shift c w (some (.joined who c)) (w ++ [who])
  /-- The first in line is admitted. -/
  | admits {who : ε} {rest : List ε} (first : w = who :: rest) : Shift c w (some (.admitted who c)) rest
  | drops {s : Signal κ ε} {who : ε} (gone : s.drops? c = some who) (in_ : who ∈ w) :
      Shift c w (some s) (w.filter (· ≠ who))

theorem Took.shift {m : Motion κ ε} {s : Option (Signal κ ε)} (t : Took g m s g') (h : g.Coherent) (d : κ) :
    Shift d (g.waiting d) s (g'.waiting d) := by
  have hw := t.waiting h d
  -- whoever waits for another client is not in this line
  have helse : ∀ {who c}, g.Waits who c → c ≠ d → (g.waiting d).filter (· ≠ who) = g.waiting d := by
    intro who c hc hd
    have hne : ∀ x ∈ g.waiting d, x ≠ who := fun x hx e =>
      hd (hc.client (h.mem_waiting_iff.mp (e ▸ hx)))
    exact List.filter_eq_self.mpr fun x hx => by simpa using hne x hx
  cases t with
  | nothing | arrived | fetched | made | turnedBack | halted => exact hw ▸ .stays (by simp)
  | turnedAway | left | resumed | pruned =>
    rw [hw]
    exact .stays (by simp [Signal.joins?, Signal.admits?, Signal.drops?])
  | @joined who c n at_ =>
    rw [hw]
    by_cases e : c = d
    · simpa [Signal.track, e] using .joins who
    · simpa [Signal.track, e] using
        .stays (by simp [Signal.joins?, Signal.admits?, Signal.drops?, e])
  | @admitted who c n at_ turn open_ =>
    by_cases e : c = d
    · subst e
      obtain ⟨rest, hrest⟩ := h.waiting_of_turn ⟨n, at_, turn⟩
      have hgone := filter_first (hrest ▸ h.nodup_waiting c)
      rw [hw, hrest]
      show Shift c (who :: rest) _ ((who :: rest).filter (· ≠ who))
      rw [hgone]
      exact .admits rfl
    · rw [hw]
      simpa only [Option.elim, Signal.track, helse ⟨n, at_⟩ e] using
        .stays (by simp [Signal.joins?, Signal.admits?, Signal.drops?, e])
  | @refused who c n reason at_ turn halt =>
    rw [hw]
    by_cases e : c = d
    · exact .drops (by simp [Signal.drops?, e]) (h.mem_waiting_iff.mpr ⟨n, e ▸ at_⟩)
    · simpa only [Option.elim, Signal.track, helse ⟨n, at_⟩ e] using
        .stays (by simp [Signal.joins?, Signal.admits?, Signal.drops?, e])
  | @withdrew who c n at_ =>
    rw [hw]
    by_cases e : c = d
    · exact .drops (by simp [Signal.drops?, e]) (h.mem_waiting_iff.mpr ⟨n, e ▸ at_⟩)
    · simpa only [Option.elim, Signal.track, helse ⟨n, at_⟩ e] using
        .stays (by simp [Signal.joins?, Signal.admits?, Signal.drops?, e])

/-- Those that were admitted, then those that wait, stand in the order in which they lined up. -/
theorem in_order_run (ms : List (Motion κ ε)) (c : κ) :
    ((run ms).1.filterMap (·.admits? c) ++ (run ms).2.waiting c).Sublist
      ((run ms).1.filterMap (·.joins? c)) := by
  induction ms with
  | nil => exact List.nil_sublist _
  | cons m ms ih =>
    have hshift := (took (run ms).2 m).shift (coherent_run ms) c
    simp only [run, List.filterMap_append]
    generalize ((run ms).2.step m).1 = s at hshift ⊢
    generalize ((run ms).2.step m).2.waiting c = w at hshift ⊢
    cases hshift with
    | stays other =>
      cases s with
      | none => simpa using ih
      | some x => simpa [(other x rfl).1, (other x rfl).2.1] using ih
    | joins who =>
      simpa [Signal.joins?, Signal.admits?] using ih.append (List.Sublist.refl [who])
    | admits first => simpa [Signal.joins?, Signal.admits?, first] using ih
    | drops gone in_ =>
      obtain ⟨hjoins, hadmits⟩ := Signal.of_drops? gone
      simpa [hjoins, hadmits] using (List.filter_sublist.append_left _).trans ih

/-- Everybody that lined up was admitted, went out of line or waits. -/
theorem accounted_run (ms : List (Motion κ ε)) (c : κ) :
    ((run ms).1.filterMap (·.joins? c)).Perm
      ((run ms).1.filterMap (·.admits? c) ++ (run ms).1.filterMap (·.drops? c) ++ (run ms).2.waiting c) := by
  induction ms with
  | nil => exact List.Perm.nil
  | cons m ms ih =>
    have h := coherent_run ms
    have hshift := (took (run ms).2 m).shift h c
    simp only [run, List.filterMap_append]
    generalize ((run ms).2.step m).1 = s at hshift ⊢
    generalize ((run ms).2.step m).2.waiting c = w at hshift ⊢
    generalize (run ms).1.filterMap (·.joins? c) = came at ih ⊢
    generalize (run ms).1.filterMap (·.admits? c) = served at ih ⊢
    generalize (run ms).1.filterMap (·.drops? c) = gone at ih ⊢
    cases hshift with
    | stays other =>
      cases s with
      | none => simpa using ih
      | some x => simpa [(other x rfl).1, (other x rfl).2.1, (other x rfl).2.2] using ih
    | joins who =>
      simpa [Signal.joins?, Signal.admits?, Signal.drops?] using ih.append_right [who]
    | @admits who _ first =>
      rw [first] at ih
      have hmove : (served ++ gone ++ who :: w).Perm (served ++ [who] ++ gone ++ w) := by
        simpa using (List.perm_middle : (gone ++ who :: w).Perm _).append_left served
      simpa [Signal.joins?, Signal.admits?, Signal.drops?] using ih.trans hmove
    | @drops x who out in_ =>
      obtain ⟨hjoins, hadmits⟩ := Signal.of_drops? out
      have hfirst : ((run ms).2.waiting c).Perm (who :: ((run ms).2.waiting c).filter (· ≠ who)) := by
        simpa [(h.nodup_waiting c).erase_eq_filter, bne, beq_eq_decide] using List.perm_cons_erase in_
      have hmove := hfirst.append_left (served ++ gone)
      simpa [hjoins, hadmits, out] using ih.trans hmove

end Runs

end SharedGate
end VoucherGateway
