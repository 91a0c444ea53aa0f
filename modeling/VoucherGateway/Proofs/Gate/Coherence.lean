import VoucherGateway.Proofs.Gate.Shared
import VoucherGateway.Proofs.Keyed

/-!
# Coherence — table, locks and entrants of the shared gate agree

`Took` lists once what a step can do.  From it follows, by induction over the steps, that the table has a lock
of its own for each client it knows, that whoever refers to a lock refers to the one the table has for the
client, and that the line at a lock is made up of the entrants that say so.

Main statement: `coherent_run`.
-/

namespace VoucherGateway

namespace Lock

variable {ε : Type} {l : Lock ε}

/-- Nobody waits for a lock that nobody has. -/
def Tight (l : Lock ε) : Prop := l.holder = none → l.queue = []

theorem line_of_holder {who : ε} (h : l.holder = some who) : l.line = who :: l.queue := by
  simp [line, h]

theorem eq_of_line_eq_nil (h : l.line = []) : l = {} := by
  obtain ⟨holder, queue⟩ := l
  obtain ⟨hh, rfl⟩ := List.append_eq_nil_iff.mp h
  cases holder with
  | none => rfl
  | some x => cases hh

theorem line_join (h : l.Tight) (who : ε) : (l.join who).line = l.line ++ [who] := by
  cases hl : l.holder with
  | none => simp [join, line, hl, h hl]
  | some x => simp [join, line, hl]

theorem tight_join (l : Lock ε) (who : ε) : (l.join who).Tight := by
  cases hl : l.holder with
  | none => simp [join, Tight, hl]
  | some x => simp [join, Tight, hl]

theorem holder_join {x : ε} (h : l.holder = some x) (who : ε) : (l.join who).holder = some x := by
  simp [join, h]

variable [DecidableEq ε]

theorem line_part (h : l.line.Nodup) (who : ε) : (l.part who).line = l.line.filter (· ≠ who) := by
  by_cases hl : l.holder = some who
  · rw [line_of_holder hl] at h ⊢
    have hout : ∀ x ∈ l.queue, x ≠ who := fun x hx e => (List.nodup_cons.mp h).1 (e ▸ hx)
    have hkeep : l.queue.filter (· ≠ who) = l.queue :=
      List.filter_eq_self.mpr fun x hx => by simpa using hout x hx
    rw [List.filter_cons_of_neg (by simp), hkeep]
    cases hq : l.queue with
    | nil => simp [part, line, hl, hq]
    | cons next rest => simp [part, line, hl, hq]
  · cases hh : l.holder with
    | none => simp [part, line, hh]
    | some x =>
      have hx : x ≠ who := fun e => hl (e ▸ hh)
      simp [part, line, hh, hx]

theorem tight_part (h : l.Tight) (who : ε) : (l.part who).Tight := by
  by_cases hl : l.holder = some who
  · cases hq : l.queue with
    | nil => simp [part, Tight, hl, hq]
    | cons next rest => simp [part, Tight, hl, hq]
  · intro hnone
    have hh : l.holder = none := by simpa [part, hl] using hnone
    simp [part, hl, h hh]

theorem holder_part {x who : ε} (h : l.holder = some x) (hx : x ≠ who) : (l.part who).holder = some x := by
  simp [part, h, hx]

end Lock

namespace SharedGate

variable {κ ε : Type} [DecidableEq κ] [DecidableEq ε] {g g' : SharedGate κ ε}

/-! ## What a step can do -/

section Took

variable [ToString κ]

/-- A step was taken: what was seen of it and what it left. -/
inductive Took (g : SharedGate κ ε) : Motion κ ε → Option (Signal κ ε) → SharedGate κ ε → Prop
  /-- The step was not open to the entrant. -/
  | nothing (m : Motion κ ε) : Took g m none g
  | turnedAway {who : ε} {c : κ} {reason : String} (out : g.visits.get? who = none)
      (halt : g.halted.get? c = some reason) :
      Took g (.arrive who c) (some (.turnedAway who c (haltedError (toString c) reason))) g
  | arrived {who : ε} {c : κ} (out : g.visits.get? who = none) (open_ : g.halted.get? c = none) :
      Took g (.arrive who c) none (g.seat who c .checked)
  | fetched {who : ε} {c : κ} {n : Nat} (at_ : g.visits.get? who = some ⟨c, .checked⟩)
      (has : g.table.get? c = some n) : Took g (.fetch who) none (g.seat who c (.fetched n))
  | made {who : ε} {c : κ} (at_ : g.visits.get? who = some ⟨c, .checked⟩)
      (has : g.table.get? c = none) :
      Took g (.fetch who) none ((g.make c).seat who c (.fetched g.made))
  | joined {who : ε} {c : κ} {n : Nat} (at_ : g.visits.get? who = some ⟨c, .fetched n⟩) :
      Took g (.join who) (some (.joined who c))
        ((g.setLock n ((g.locks n).join who)).seat who c (.lined n))
  | refused {who : ε} {c : κ} {n : Nat} {reason : String}
      (at_ : g.visits.get? who = some ⟨c, .lined n⟩) (turn : (g.locks n).holder = some who)
      (halt : g.halted.get? c = some reason) :
      Took g (.proceed who) (some (.refused who c (haltedError (toString c) reason))) (g.dismiss who n)
  | admitted {who : ε} {c : κ} {n : Nat} (at_ : g.visits.get? who = some ⟨c, .lined n⟩)
      (turn : (g.locks n).holder = some who) (open_ : g.halted.get? c = none) :
      Took g (.proceed who) (some (.admitted who c)) (g.seat who c (.inside n))
  | left {who : ε} {c : κ} {n : Nat} (at_ : g.visits.get? who = some ⟨c, .inside n⟩) :
      Took g (.leave who) (some (.left who c)) (g.dismiss who n)
  | withdrew {who : ε} {c : κ} {n : Nat} (at_ : g.visits.get? who = some ⟨c, .lined n⟩) :
      Took g (.withdraw who) (some (.withdrew who c)) (g.dismiss who n)
  /-- Gave up before it was in line. -/
  | turnedBack {who : ε} {v : Visit κ} (at_ : g.visits.get? who = some v)
      (early : v.stage = .checked ∨ ∃ n, v.stage = .fetched n) :
      Took g (.withdraw who) none (g.forget who)
  | halted (c : κ) (reason : String) :
      Took g (.halt c reason) none { g with halted := g.halted.put c reason }
  | resumed (c : κ) :
      Took g (.resume c) (some (.resumed c (g.halted.get? c).isSome))
        { g with halted := g.halted.erase c }
  | pruned : Took g .prune (some (.pruned (g.table.size - g.prune.table.size))) g.prune

theorem took (g : SharedGate κ ε) (m : Motion κ ε) : Took g m (g.step m).1 (g.step m).2 := by
  cases m with
  | arrive who c =>
    simp only [step]
    split
    next => exact .nothing _
    next hhas =>
      have hv : g.visits.get? who = none := by simpa [Table.has] using hhas
      split
      next reason hh => exact .turnedAway hv hh
      next hh => exact .arrived hv hh
  | fetch who =>
    simp only [step]
    split
    next c hv =>
      split
      next n hn => exact .fetched hv hn
      next hn => exact .made hv hn
    next => exact .nothing _
  | join who =>
    simp only [step]
    split
    next c n hv => exact .joined hv
    next => exact .nothing _
  | proceed who =>
    simp only [step]
    split
    next c n hv =>
      split
      next hturn =>
        split
        next reason hh => exact .refused hv hturn hh
        next hh => exact .admitted hv hturn hh
      next => exact .nothing _
    next => exact .nothing _
  | leave who =>
    simp only [step]
    split
    next c n hv => exact .left hv
    next => exact .nothing _
  | withdraw who =>
    simp only [step]
    split
    next c n hv => exact .withdrew hv
    next => exact .nothing _
    next v hlined hinside hv =>
      refine .turnedBack hv ?_
      obtain ⟨c, _ | n | n | n⟩ := v
      · exact .inl rfl
      · exact .inr ⟨n, rfl⟩
      · exact absurd rfl (hlined c n)
      · exact absurd rfl (hinside c n)
    next => exact .nothing _
  | halt c reason => exact .halted c reason
  | resume c => exact .resumed c
  | prune => exact .pruned

end Took

/-! ## The agreement -/

/-- Table, locks and entrants agree. -/
structure Coherent (g : SharedGate κ ε) : Prop where
  visitors : g.visits.Keyed
  clients : g.table.Keyed
  numbers : (g.table.rows.map (·.2)).Nodup
  below : ∀ {c n}, g.table.get? c = some n → n < g.made
  mapped : ∀ {who v n}, g.visits.get? who = some v → v.stage.lock? = some n →
    g.table.get? v.client = some n
  line : ∀ {who n}, who ∈ (g.locks n).line ↔
    ∃ v, g.visits.get? who = some v ∧ (v.stage = .lined n ∨ v.stage = .inside n)
  inside : ∀ {who c n}, g.visits.get? who = some ⟨c, .inside n⟩ → (g.locks n).holder = some who
  distinct : ∀ n, (g.locks n).line.Nodup
  tight : ∀ n, (g.locks n).Tight

section Visits

omit [DecidableEq κ]

@[simp] theorem seat_visits (g : SharedGate κ ε) (who x : ε) (c : κ) (s : Stage) :
    (g.seat who c s).visits.get? x = if x = who then some ⟨c, s⟩ else g.visits.get? x :=
  Table.get?_put ..

theorem seat_visits_self (g : SharedGate κ ε) (who : ε) (c : κ) (s : Stage) :
    (g.seat who c s).visits.get? who = some ⟨c, s⟩ :=
  Table.get?_put_self ..

@[simp] theorem forget_visits (g : SharedGate κ ε) (who x : ε) :
    (g.forget who).visits.get? x = if x = who then none else g.visits.get? x :=
  Table.get?_erase ..

@[simp] theorem dismiss_visits (g : SharedGate κ ε) (who x : ε) (n : Nat) :
    (g.dismiss who n).visits.get? x = if x = who then none else g.visits.get? x :=
  Table.get?_erase ..

@[simp] theorem dismiss_locks (g : SharedGate κ ε) (who : ε) (n k : Nat) :
    (g.dismiss who n).locks k = if k = n then (g.locks n).part who else g.locks k := rfl

end Visits

section Locks

omit [DecidableEq ε]

omit [DecidableEq κ] in
@[simp] theorem setLock_locks (g : SharedGate κ ε) (n k : Nat) (l : Lock ε) :
    (g.setLock n l).locks k = if k = n then l else g.locks k := rfl

@[simp] theorem make_table (g : SharedGate κ ε) (c d : κ) :
    (g.make c).table.get? d = if d = c then some g.made else g.table.get? d :=
  Table.get?_put ..

end Locks

namespace Coherent

theorem mem_line_iff (h : g.Coherent) {who : ε} {v : Visit κ} (at_ : g.visits.get? who = some v) {n : Nat} :
    who ∈ (g.locks n).line ↔ v.stage = .lined n ∨ v.stage = .inside n := by
  simp [h.line, at_]

theorem not_mem_line (h : g.Coherent) {who : ε} (out : g.visits.get? who = none) (n : Nat) :
    who ∉ (g.locks n).line := by
  simp [h.line, out]

theorem visit_of_line (h : g.Coherent) {who : ε} {n : Nat} (hw : who ∈ (g.locks n).line) :
    ∃ v, g.visits.get? who = some v ∧ v.stage.lock? = some n := by
  obtain ⟨v, hv, hs⟩ := h.line.mp hw
  exact ⟨v, hv, by rcases hs with hs | hs <;> simp [hs, Stage.lock?]⟩

/-- The next lock to be made is free. -/
theorem locks_made (h : g.Coherent) : g.locks g.made = {} := by
  have hline : (g.locks g.made).line = [] := by
    refine List.eq_nil_iff_forall_not_mem.mpr fun x hx => ?_
    obtain ⟨v, hv, hlock⟩ := h.visit_of_line hx
    exact Nat.lt_irrefl _ (h.below (h.mapped hv hlock))
  exact Lock.eq_of_line_eq_nil hline

theorem number_injective (h : g.Coherent) {c d : κ} {n : Nat} (hc : g.table.get? c = some n)
    (hd : g.table.get? d = some n) : c = d :=
  congrArg Prod.fst (List.inj_on_of_nodup_map h.numbers (Table.mem_of_get? hc) (Table.mem_of_get? hd) rfl)

/-- An entrant goes to another stage at the same locks. -/
theorem seat (h : g.Coherent) {who : ε} {c : κ} {s : Stage}
    (mapped : ∀ n, s.lock? = some n → g.table.get? c = some n)
    (line : ∀ n, who ∈ (g.locks n).line ↔ s = .lined n ∨ s = .inside n)
    (inside : ∀ n, s = .inside n → (g.locks n).holder = some who) : (g.seat who c s).Coherent where
  visitors := h.visitors.put ..
  clients := h.clients
  numbers := h.numbers
  below := h.below
  mapped {x v n} hv hn := by
    rw [seat_visits] at hv
    split at hv
    next => cases hv; exact mapped n hn
    next => exact h.mapped hv hn
  line {x n} := by
    rw [seat_visits]
    split
    next e => subst e; simpa [SharedGate.seat] using line n
    next => exact h.line
  inside {x d n} hv := by
    rw [seat_visits] at hv
    split at hv
    next e => cases hv; exact e ▸ inside n rfl
    next => exact h.inside hv
  distinct := h.distinct
  tight := h.tight

/-- A client without a lock gets one. -/
theorem make (h : g.Coherent) {c : κ} (has : g.table.get? c = none) : (g.make c).Coherent where
  visitors := h.visitors
  clients := h.clients.put ..
  numbers := by
    have hfresh : g.made ∉ g.table.rows.map (·.2) := by
      intro hm
      obtain ⟨⟨d, n⟩, hrow, rfl⟩ := List.mem_map.mp hm
      exact Nat.lt_irrefl _ (h.below (h.clients.get?_of_mem hrow))
    have hrows : (g.make c).table.rows = g.table.rows ++ [(c, g.made)] :=
      Table.putRow_of_absent g.made (Table.get?_eq_none_iff.mp has)
    rw [hrows, List.map_append]
    exact List.nodup_append_comm.mp (List.nodup_cons.mpr ⟨hfresh, h.numbers⟩)
  below {d n} hd := by
    rw [make_table] at hd
    split at hd
    next => cases hd; exact Nat.lt_succ_self _
    next => exact Nat.lt_succ_of_lt (h.below hd)
  mapped {x v n} hv hn := by
    have hold := h.mapped hv hn
    have hne : v.client ≠ c := fun e => by rw [e, has] at hold; cases hold
    rw [make_table, if_neg hne]
    exact hold
  line := h.line
  inside := h.inside
  distinct := h.distinct
  tight := h.tight

/-- An entrant takes the lock it has fetched or lines up. -/
theorem joined (h : g.Coherent) {who : ε} {c : κ} {n : Nat} (at_ : g.visits.get? who = some ⟨c, .fetched n⟩) :
    ((g.setLock n ((g.locks n).join who)).seat who c (.lined n)).Coherent where
  visitors := h.visitors.put ..
  clients := h.clients
  numbers := h.numbers
  below := h.below
  mapped {x v k} hv hk := by
    rw [seat_visits] at hv
    split at hv
    next => cases hv; exact h.mapped at_ (v := ⟨c, .fetched n⟩) hk
    next => exact h.mapped hv hk
  line {x k} := by
    have hwho := h.mem_line_iff at_ (n := k)
    rw [seat_visits]
    show x ∈ ((g.setLock n _).locks k).line ↔ _
    rw [setLock_locks]
    split
    next e =>
      subst e
      rw [Lock.line_join (h.tight _), List.mem_append, List.mem_singleton]
      split
      next e => simp [e]
      next hne => simp only [hne, or_false]; exact h.line
    next hk =>
      split
      next e => subst e; simpa [hk, Ne.symm hk] using hwho
      next => exact h.line
  inside {x d k} hv := by
    rw [seat_visits] at hv
    split at hv
    next => cases hv
    next =>
      have hold := h.inside hv
      show ((g.setLock n _).locks k).holder = some x
      rw [setLock_locks]
      split
      next e => subst e; exact Lock.holder_join hold who
      next => exact hold
  distinct k := by
    show ((g.setLock n _).locks k).line.Nodup
    rw [setLock_locks]
    split
    next =>
      rw [Lock.line_join (h.tight _)]
      have hout : who ∉ (g.locks n).line := by simp [h.mem_line_iff at_]
      exact List.nodup_append_comm.mp (List.nodup_cons.mpr ⟨hout, h.distinct n⟩)
    next => exact h.distinct k
  tight k := by
    show ((g.setLock n _).locks k).Tight
    rw [setLock_locks]
    split
    next => exact Lock.tight_join (g.locks n) who
    next => exact h.tight k

/-- An entrant that has a lock or is in line for it goes away. -/
theorem dismiss (h : g.Coherent) {who : ε} {v : Visit κ} {n : Nat} (at_ : g.visits.get? who = some v)
    (stage : v.stage = .lined n ∨ v.stage = .inside n) : (g.dismiss who n).Coherent where
  visitors := h.visitors.erase _
  clients := h.clients
  numbers := h.numbers
  below := h.below
  mapped {x w k} hv hk := by
    rw [dismiss_visits] at hv
    split at hv
    next => cases hv
    next => exact h.mapped hv hk
  line {x k} := by
    rw [dismiss_visits, dismiss_locks]
    split
    next e =>
      subst e
      rw [Lock.line_part (h.distinct _)]
      split
      next e => simp [e]
      next hne => simpa [hne] using h.line
    next hk =>
      split
      next e =>
        subst e
        rw [h.mem_line_iff at_]
        rcases stage with hs | hs <;> simp [hs, Ne.symm hk]
      next => exact h.line
  inside {x d k} hv := by
    rw [dismiss_visits] at hv
    split at hv
    next => cases hv
    next hne =>
      rw [dismiss_locks]
      split
      next e => subst e; exact Lock.holder_part (h.inside hv) hne
      next => exact h.inside hv
  distinct k := by
    rw [dismiss_locks]
    split
    next => rw [Lock.line_part (h.distinct _)]; exact (h.distinct n).filter _
    next => exact h.distinct k
  tight k := by
    rw [dismiss_locks]
    split
    next => exact Lock.tight_part (h.tight n) who
    next => exact h.tight k

/-- An entrant that is not in line yet goes away. -/
theorem forget (h : g.Coherent) {who : ε} {v : Visit κ} (at_ : g.visits.get? who = some v)
    (early : v.stage = .checked ∨ ∃ n, v.stage = .fetched n) : (g.forget who).Coherent where
  visitors := h.visitors.erase _
  clients := h.clients
  numbers := h.numbers
  below := h.below
  mapped {x w k} hv hk := by
    rw [forget_visits] at hv
    split at hv
    next => cases hv
    next => exact h.mapped hv hk
  line {x k} := by
    rw [forget_visits]
    split
    next e =>
      subst e
      refine (h.mem_line_iff at_).trans ?_
      rcases early with hs | ⟨n, hs⟩ <;> simp [hs]
    next => exact h.line
  inside {x d k} hv := by
    rw [forget_visits] at hv
    split at hv
    next => cases hv
    next => exact h.inside hv
  distinct := h.distinct
  tight := h.tight

/-- The table refers once to a lock it has for a client; another reference is an entrant's. -/
theorem references (h : g.Coherent) {c : κ} {n : Nat} (has : g.table.get? c = some n) :
    1 < g.references n ↔ ∃ who v, g.visits.get? who = some v ∧ v.client = c ∧ v.stage.lock? = some n := by
  have hone : (g.table.rows.map (·.2)).count n = 1 :=
    List.count_eq_one_of_mem h.numbers (List.mem_map_of_mem (Table.mem_of_get? has))
  have hsome : 1 < g.references n ↔ ∃ r ∈ g.visits.rows, r.2.stage.lock? = some n := by
    unfold SharedGate.references
    rw [hone, Nat.lt_add_right_iff_pos, List.countP_pos_iff]
    simp
  rw [hsome]
  constructor
  · rintro ⟨⟨who, v⟩, hr, hn⟩
    have hv := h.visitors.get?_of_mem hr
    exact ⟨who, v, hv, h.number_injective (h.mapped hv hn) has, hn⟩
  · rintro ⟨who, v, hv, -, hn⟩
    exact ⟨(who, v), Table.mem_of_get? hv, hn⟩

/-- Nobody that has a lock loses it from the table. -/
theorem prune (h : g.Coherent) : g.prune.Coherent where
  visitors := h.visitors
  clients := h.clients.keep _
  numbers := h.numbers.sublist (List.filter_sublist.map _)
  below {c n} hc := by
    have hfull : (g.table.get? c).filter (fun n => decide (1 < g.references n)) = some n :=
      (h.clients.get?_keep _ c).symm.trans hc
    exact h.below (Option.filter_eq_some_iff.mp hfull).1
  mapped {who v n} hv hn := by
    have hold := h.mapped hv hn
    refine (h.clients.get?_keep _ v.client).trans (Option.filter_eq_some_iff.mpr ⟨hold, ?_⟩)
    exact decide_eq_true ((h.references hold).mpr ⟨who, v, hv, rfl, hn⟩)
  line := h.line
  inside := h.inside
  distinct := h.distinct
  tight := h.tight

end Coherent

section Runs

variable [ToString κ]

/-- Every step keeps the agreement. -/
theorem Took.coherent {m : Motion κ ε} {s : Option (Signal κ ε)} (t : Took g m s g') (h : g.Coherent) :
    g'.Coherent := by
  cases t with
  | nothing => exact h
  | turnedAway out halt => exact h
  | arrived out open_ => exact h.seat nofun (fun n => by simp [h.not_mem_line out]) nofun
  | @fetched who c n at_ has =>
    refine h.seat (fun k hk => ?_) (fun k => by simp [h.mem_line_iff at_]) nofun
    cases hk
    exact has
  | @made who c at_ has =>
    have hm := h.make has
    have at' : (g.make c).visits.get? who = some ⟨c, .checked⟩ := at_
    refine hm.seat (fun k hk => ?_) (fun k => by simp [hm.mem_line_iff at']) nofun
    cases hk
    simp
  | joined at_ => exact h.joined at_
  | refused at_ turn halt => exact h.dismiss at_ (.inl rfl)
  | @admitted who c n at_ turn open_ =>
    refine h.seat (fun k hk => h.mapped at_ hk) (fun k => ?_) (fun k hk => ?_)
    · simp [h.mem_line_iff at_]
    · cases hk
      exact turn
  | left at_ => exact h.dismiss at_ (.inr rfl)
  | withdrew at_ => exact h.dismiss at_ (.inl rfl)
  | turnedBack at_ early => exact h.forget at_ early
  | halted c reason => exact { h with }
  | resumed c => exact { h with }
  | pruned => exact h.prune

omit [ToString κ] in
theorem coherent_start : ({} : SharedGate κ ε).Coherent where
  visitors := List.nodup_nil
  clients := List.nodup_nil
  numbers := List.nodup_nil
  below := nofun
  mapped := nofun
  line := by simp [Lock.line, Table.get?]
  inside := nofun
  distinct _ := List.nodup_nil
  tight _ _ := rfl

/-- Table, locks and entrants agree however the steps fall. -/
theorem coherent_run (ms : List (Motion κ ε)) : (run ms).2.Coherent := by
  induction ms with
  | nil => exact coherent_start
  | cons m ms ih => exact (took _ m).coherent ih

end Runs
end SharedGate
end VoucherGateway
