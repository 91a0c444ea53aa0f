import VoucherGateway.Proofs.Gate.Settling

/-!
# Realisation — the gate is the shared gate seen at rest

`Gate` answers one request at a time and lets everybody run as far as they can before the next.  Each of its
runs is a run of the shared gate looked at whenever everybody is at rest: the same entrants are seen to line
up, to be admitted, to fail and to leave, in the same order, the same halts stand, and each client's lock has
the same holder and the same line.

Main statement: `realised`.
-/

namespace VoucherGateway

/-- A request to the gate. -/
inductive Request (κ ε : Type)
  | enter (who : ε) (client : κ)
  | release (who : ε)
  | cancel (who : ε)
  | halt (client : κ) (reason : String)
  | resume (client : κ)
  | prune
  deriving DecidableEq, Repr

/-- A lock that is passed to the first of a queue. -/
def Lock.passedTo {ε : Type} : List ε → Lock ε
  | [] => {}
  | next :: rest => { holder := some next, queue := rest }

namespace Gate

variable {κ ε : Type} [DecidableEq κ] [DecidableEq ε]

omit [DecidableEq ε] in
theorem setLock_setLock (g : Gate κ ε) (c : κ) (l l' : Lock ε) :
    (g.setLock c l).setLock c l' = g.setLock c l' := by
  simp [setLock, Table.put_put]

/-- Whether an entrant is about. -/
def knows (g : Gate κ ε) (who : ε) : Bool := g.holders.contains who || g.waiters.contains who

variable [ToString κ]

/-- What is seen of a request, and the gate once everybody has run as far as they can.  An entrant that is
about does not enter again. -/
def take (g : Gate κ ε) : Request κ ε → List (Signal κ ε) × Gate κ ε
  | .enter who client =>
    if g.knows who then ([], g)
    else
      match g.enter who client with
      | (.refused reason, g') => ([.turnedAway who client (haltedError (toString client) reason)], g')
      | (.held, g') => ([.joined who client, .admitted who client], g')
      | (.waiting, g') => ([.joined who client], g')
  | .release who =>
    match g.release who with
    | (none, g') => ([], g')
    | (some (client, refused), g') =>
      let error := haltedError (toString client) ((g.haltReason? client).getD "")
      (.left who client :: refused.map (.refused · client error) ++
        (g'.lock client).holder.toList.map (.admitted · client), g')
  | .cancel who =>
    match g.awaitedBy? who with
    | none => ([], g)
    | some client => ([.withdrew who client], (g.cancel who).2)
  | .halt client reason => ([], g.halt client reason)
  | .resume client => ([.resumed client (g.resume client).1], (g.resume client).2)
  | .prune => ([.pruned g.prune.1], g.prune.2)

/-- What is seen of a sequence of requests, first request first, and the gate after it; the list of the
requests has the newest first. -/
def serve : List (Request κ ε) → List (Signal κ ε) × Gate κ ε
  | [] => ([], {})
  | r :: rs => ((serve rs).1 ++ ((serve rs).2.take r).1, ((serve rs).2.take r).2)

end Gate

namespace SharedGate

variable {κ ε : Type} [DecidableEq κ] [DecidableEq ε] {g g' : SharedGate κ ε}

/-- Each client with its lock. -/
def view (g : SharedGate κ ε) : Gate κ ε where
  halted := g.halted
  locks := ⟨g.table.rows.map fun r => (r.1, g.locks r.2)⟩

/-! ## Looking at the locks -/

omit [DecidableEq ε] in
theorem get?_view (g : SharedGate κ ε) (c : κ) : g.view.locks.get? c = (g.table.get? c).map g.locks := by
  simp only [view, Table.get?, List.find?_map, Option.map_map]
  rfl

omit [DecidableEq ε] in
theorem lock_view {c : κ} {n : Nat} (has : g.table.get? c = some n) : g.view.lock c = g.locks n := by
  simp [Gate.lock, get?_view, has]

omit [DecidableEq ε] in
theorem lock_view_of_absent {c : κ} (has : g.table.get? c = none) : g.view.lock c = {} := by
  simp [Gate.lock, get?_view, has]

omit [DecidableEq ε] in
/-- Writing the row of a client writes its lock, since no other client has the same. -/
theorem putRow_map {c : κ} {n : Nat} {rows : List (κ × Nat)} (l : Lock ε) (f : Nat → Lock ε)
    (keys : (rows.map (·.1)).Nodup) (numbers : (rows.map (·.2)).Nodup) (has : (c, n) ∈ rows) :
    Table.putRow c l (rows.map fun r => (r.1, f r.2)) =
      rows.map fun r => (r.1, if r.2 = n then l else f r.2) := by
  induction rows with
  | nil => cases has
  | cons r rs ih =>
    obtain ⟨hkey, hkeys⟩ := List.nodup_cons.mp keys
    obtain ⟨hnum, hnums⟩ := List.nodup_cons.mp numbers
    rcases List.mem_cons.mp has with rfl | hrs
    · have hrest : ∀ r ∈ rs, (r.1, if r.2 = n then l else f r.2) = (r.1, f r.2) := fun r hr => by
        rw [if_neg fun e => hnum (List.mem_map.mpr ⟨r, hr, e⟩)]
      simp [Table.putRow, List.map_congr_left hrest]
    · have hc : r.1 ≠ c := fun e => hkey (List.mem_map.mpr ⟨(c, n), hrs, e.symm⟩)
      have hn : r.2 ≠ n := fun e => hnum (List.mem_map.mpr ⟨(c, n), hrs, e.symm⟩)
      simp [Table.putRow, hc, hn, ih hkeys hnums hrs]

namespace Coherent

theorem view_setLock (h : g.Coherent) {c : κ} {n : Nat} (has : g.table.get? c = some n) (l : Lock ε) :
    (g.setLock n l).view = g.view.setLock c l := by
  have hrow := putRow_map l g.locks h.clients h.numbers (Table.mem_of_get? has)
  simp only [view, Gate.setLock, Table.put, hrow]
  rfl

theorem view_dismiss (h : g.Coherent) {c : κ} {n : Nat} (has : g.table.get? c = some n) (who : ε) :
    (g.dismiss who n).view = g.view.setLock c ((g.locks n).part who) :=
  h.view_setLock has _

theorem view_make (h : g.Coherent) {c : κ} (has : g.table.get? c = none) (l : Lock ε) :
    ((g.make c).setLock g.made l).view = g.view.setLock c l := by
  have hrows : (g.make c).table.rows = g.table.rows ++ [(c, g.made)] :=
    Table.putRow_of_absent g.made (Table.get?_eq_none_iff.mp has)
  have hold : ∀ r ∈ g.table.rows,
      (r.1, ((g.make c).setLock g.made l).locks r.2) = (r.1, g.locks r.2) := fun r hr => by
    have hlt : r.2 < g.made := h.below (h.clients.get?_of_mem hr)
    rw [setLock_locks, if_neg (Nat.ne_of_lt hlt)]
    rfl
  have hkeys : c ∉ (g.table.rows.map fun r => (r.1, g.locks r.2)).map (·.1) := by
    simpa [Function.comp_def] using Table.get?_eq_none_iff.mp has
  simp only [view, Gate.setLock, Table.put, Table.putRow_of_absent l hkeys]
  show (⟨g.halted, ⟨(g.make c).table.rows.map _⟩⟩ : Gate κ ε) = _
  rw [hrows, List.map_append, List.map_congr_left hold]
  simp

end Coherent

/-! ## Finding entrants at rest -/

section Find

omit [DecidableEq ε]

/-- The only client whose lock passes a test is the one that is found. -/
theorem find?_view_eq_some (clients : g.table.Keyed) (p : Lock ε → Bool) {c : κ} {n : Nat}
    (has : g.table.get? c = some n) (hp : p (g.locks n))
    (only : ∀ d k, g.table.get? d = some k → p (g.locks k) → d = c) :
    (g.view.locks.rows.find? fun r => p r.2).map (·.1) = some c := by
  simp only [view, List.find?_map, Option.map_map]
  cases hf : g.table.rows.find? ((fun r => p r.2) ∘ fun r => (r.1, g.locks r.2)) with
  | none => exact absurd hp (List.find?_eq_none.mp hf _ (Table.mem_of_get? has))
  | some r =>
    have hr := clients.get?_of_mem (List.mem_of_find?_eq_some hf)
    have hpr := List.find?_some hf
    exact congrArg some (only r.1 r.2 hr hpr)

theorem find?_view_eq_none (clients : g.table.Keyed) (p : Lock ε → Bool)
    (nowhere : ∀ d k, g.table.get? d = some k → ¬ p (g.locks k)) :
    (g.view.locks.rows.find? fun r => p r.2).map (·.1) = none := by
  simp only [view, List.find?_map, Option.map_map, Option.map_eq_none_iff, List.find?_eq_none]
  exact fun r hr => nowhere r.1 r.2 (clients.get?_of_mem hr)

end Find

section Rest

variable [ToString κ]

/-- At rest whoever has a lock holds its client. -/
theorem Coherent.holds_of_holder (h : g.Coherent) (rest : g.Settled) {c : κ} {n : Nat} {who : ε}
    (has : g.table.get? c = some n) (hh : (g.locks n).holder = some who) :
    g.visits.get? who = some ⟨c, .inside n⟩ := by
  have hin : who ∈ (g.locks n).line := by simp [Lock.line, hh]
  obtain ⟨⟨d, s⟩, hv, hs⟩ := h.line.mp hin
  rcases settled_iff.mp rest who _ hv with ⟨k, hk⟩ | ⟨k, hk, hne⟩
  · cases hk
    obtain rfl : k = n := by simpa using hs
    obtain rfl : d = c := h.number_injective (h.mapped hv rfl) has
    exact hv
  · cases hk
    obtain rfl : k = n := by simpa using hs
    exact absurd hh hne

omit [ToString κ] in
/-- At rest whoever is in a queue waits for its client. -/
theorem Coherent.waits_of_queue (h : g.Coherent) {c : κ} {n : Nat} {who : ε}
    (has : g.table.get? c = some n) (hq : who ∈ (g.locks n).queue) :
    g.visits.get? who = some ⟨c, .lined n⟩ := by
  have hin : who ∈ (g.locks n).line := List.mem_append_right _ hq
  obtain ⟨⟨d, s⟩, hv, hs⟩ := h.line.mp hin
  have hmapped : s.lock? = some n := by rcases hs with hs | hs <;> simp_all [Stage.lock?]
  obtain rfl : d = c := h.number_injective (h.mapped hv hmapped) has
  rcases hs with hs | hs
  · cases hs
    exact hv
  · -- who is inside has the lock, and nobody is in the line twice
    cases hs
    have hnodup := h.distinct n
    rw [Lock.line_of_holder (h.inside hv)] at hnodup
    exact absurd hq (List.nodup_cons.mp hnodup).1

theorem heldBy?_of_inside (h : g.Coherent) (rest : g.Settled) {who : ε} {c : κ} {n : Nat}
    (at_ : g.visits.get? who = some ⟨c, .inside n⟩) : g.view.heldBy? who = some c := by
  refine find?_view_eq_some h.clients (fun l => l.holder = some who) (h.mapped at_ rfl)
    (by simpa using h.inside at_) fun d k hd hk => ?_
  have hv := h.holds_of_holder rest hd (by simpa using hk)
  rw [at_] at hv
  cases hv
  rfl

theorem heldBy?_eq_none (h : g.Coherent) (rest : g.Settled) {who : ε}
    (out : ∀ c n, g.visits.get? who ≠ some ⟨c, .inside n⟩) : g.view.heldBy? who = none :=
  find?_view_eq_none h.clients (fun l => l.holder = some who) fun d k hd hk =>
    out d k (h.holds_of_holder rest hd (by simpa using hk))

omit [ToString κ] in
theorem awaitedBy?_eq_none (h : g.Coherent) {who : ε}
    (out : ∀ c n, g.visits.get? who ≠ some ⟨c, .lined n⟩) : g.view.awaitedBy? who = none :=
  find?_view_eq_none h.clients (fun l => l.queue.contains who) fun d k hd hk =>
    out d k (h.waits_of_queue hd (by simpa using hk))

/-- At rest whoever is lined up is in the queue. -/
theorem mem_queue (h : g.Coherent) (rest : g.Settled) {who : ε} {c : κ} {n : Nat}
    (at_ : g.visits.get? who = some ⟨c, .lined n⟩) :
    (g.locks n).holder ≠ some who ∧ who ∈ (g.locks n).queue := by
  have hne : (g.locks n).holder ≠ some who := by
    rcases settled_iff.mp rest who _ at_ with ⟨k, hk⟩ | ⟨k, hk, hne⟩
    · cases hk
    · cases hk
      exact hne
  have hin : who ∈ (g.locks n).line := (h.mem_line_iff at_).mpr (.inl rfl)
  refine ⟨hne, (List.mem_append.mp hin).resolve_left fun hh => hne ?_⟩
  simpa using hh

theorem awaitedBy?_of_lined (h : g.Coherent) (rest : g.Settled) {who : ε} {c : κ} {n : Nat}
    (at_ : g.visits.get? who = some ⟨c, .lined n⟩) : g.view.awaitedBy? who = some c := by
  refine find?_view_eq_some h.clients (fun l => l.queue.contains who) (h.mapped at_ rfl)
    (by simpa using (mem_queue h rest at_).2) fun d k hd hk => ?_
  have hv := h.waits_of_queue hd (by simpa using hk)
  rw [at_] at hv
  cases hv
  rfl

/-- At rest whoever is about holds a client or is in a queue. -/
theorem knows_view (h : g.Coherent) (rest : g.Settled) (who : ε) :
    g.view.knows who = (g.visits.get? who).isSome := by
  rw [Bool.eq_iff_iff]
  simp only [Gate.knows, Gate.holders, Gate.waiters, view, Bool.or_eq_true, List.contains_iff_mem,
    List.mem_filterMap, List.mem_flatMap, List.mem_map, Option.isSome_iff_exists]
  constructor
  · rintro (⟨_, ⟨⟨d, k⟩, hr, rfl⟩, hh⟩ | ⟨_, ⟨⟨d, k⟩, hr, rfl⟩, hq⟩)
    · exact ⟨_, h.holds_of_holder rest (h.clients.get?_of_mem hr) hh⟩
    · exact ⟨_, h.waits_of_queue (h.clients.get?_of_mem hr) hq⟩
  · rintro ⟨⟨c, s⟩, hv⟩
    rcases settled_iff.mp rest who _ hv with ⟨n, hs⟩ | ⟨n, hs, -⟩
    · cases hs
      exact .inl ⟨_, ⟨_, Table.mem_of_get? (h.mapped hv rfl), rfl⟩, h.inside hv⟩
    · cases hs
      exact .inr ⟨_, ⟨_, Table.mem_of_get? (h.mapped hv rfl), rfl⟩, (mem_queue h rest hv).2⟩

/-! ## Answering a request step by step -/

/-- One gate leads to another by steps of which signals are seen, first signal first. -/
inductive Leads (g : SharedGate κ ε) : List (Signal κ ε) → SharedGate κ ε → Prop
  | refl : Leads g [] g
  | step {L : List (Signal κ ε)} {g' : SharedGate κ ε} (h : Leads g L g') (m : Motion κ ε) :
      Leads g (L ++ (g'.step m).1.toList) (g'.step m).2

namespace Leads

variable {g'' : SharedGate κ ε} {L L' : List (Signal κ ε)}

theorem of_step {m : Motion κ ε} {s : Option (Signal κ ε)} (h : g.step m = (s, g')) :
    Leads g s.toList g' := by
  simpa [h] using Leads.step (g := g) .refl m

theorem trans (h : Leads g L g') (h' : Leads g' L' g'') : Leads g (L ++ L') g'' := by
  induction h' with
  | refl => simpa using h
  | step _ m ih => simpa using ih.step m

theorem run (h : Leads g L g') {ms : List (Motion κ ε)} (hg : (run ms).2 = g) :
    ∃ ms', SharedGate.run ms' = ((SharedGate.run ms).1 ++ L, g') := by
  induction h with
  | refl => exact ⟨ms, by simp [← hg]⟩
  | step _ m ih =>
    obtain ⟨ms', hms⟩ := ih
    exact ⟨m :: ms', by simp [SharedGate.run, hms]⟩

end Leads

/-- The shared gate answers a request as the gate does. -/
def Answers (g : SharedGate κ ε) (r : Request κ ε) : Prop :=
  ∃ g', Leads g (g.view.take r).1 g' ∧ g'.Settled ∧ g'.view = (g.view.take r).2

/-- An entrant has fetched the lock of a client. -/
structure Fetched (g : SharedGate κ ε) (who : ε) (c : κ) (n : Nat) (g' : SharedGate κ ε) : Prop where
  leads : Leads g [] g'
  at_ : g'.visits.get? who = some ⟨c, .fetched n⟩
  others : ∀ x, x ≠ who → g'.visits.get? x = g.visits.get? x
  halted : g'.halted = g.halted
  locks : g'.locks = g.locks
  lock : g.view.lock c = g.locks n
  view : ∀ l, (g'.setLock n l).view = g.view.setLock c l

theorem Coherent.fetched (h : g.Coherent) {who : ε} {c : κ} (out : g.visits.get? who = none)
    (open_ : g.halted.get? c = none) : ∃ n g', Fetched g who c n g' := by
  have harrive : g.step (.arrive who c) = (none, g.seat who c .checked) := by
    simp [step, Table.has, out, open_]
  have hone := Leads.of_step harrive
  cases has : g.table.get? c with
  | some n =>
    have hfetch : (g.seat who c .checked).step (.fetch who) =
        (none, (g.seat who c .checked).seat who c (.fetched n)) := by
      have hhas : (g.seat who c .checked).table.get? c = some n := has
      simp [step, hhas]
    exact ⟨n, _, {
      leads := hone.trans (.of_step hfetch)
      at_ := by simp
      others := fun x hx => by simp [hx]
      halted := rfl
      locks := rfl
      lock := lock_view has
      view := fun l => h.view_setLock has l }⟩
  | none =>
    have hfetch : (g.seat who c .checked).step (.fetch who) =
        (none, ((g.seat who c .checked).make c).seat who c (.fetched g.made)) := by
      have hhas : (g.seat who c .checked).table.get? c = none := has
      simp only [step, seat_visits, if_true, hhas]
      rfl
    exact ⟨g.made, _, {
      leads := hone.trans (.of_step hfetch)
      at_ := by simp
      others := fun x hx => by
        rw [seat_visits, if_neg hx]
        exact (seat_visits g who x c .checked).trans (if_neg hx)
      halted := rfl
      locks := rfl
      lock := (lock_view_of_absent has).trans h.locks_made.symm
      view := fun l => h.view_make has l }⟩

/-- An entrant comes to rest at a lock that it has taken or lined up for; everybody else is at rest still. -/
theorem settled_of_joined (rest : g.Settled) (who : ε) (n : Nat) {c : κ} {s : Stage}
    (at_ : g'.visits.get? who = some ⟨c, s⟩) (others : ∀ x, x ≠ who → g'.visits.get? x = g.visits.get? x)
    (locks : ∀ k, g'.locks k = if k = n then (g.locks n).join who else g.locks k)
    (hs : s = .inside n ∨ s = .lined n ∧ ((g.locks n).join who).holder ≠ some who) : g'.Settled := by
  refine settled_iff.mpr fun x v hv => ?_
  by_cases e : x = who
  · subst e
    rw [at_] at hv
    cases hv
    rcases hs with rfl | ⟨rfl, hne⟩
    · exact .inl ⟨n, rfl⟩
    · exact .inr ⟨n, rfl, by simpa [locks] using hne⟩
  · refine (settled_iff.mp rest x v (others x e ▸ hv)).imp_right ?_
    rintro ⟨k, hk, hne⟩
    refine ⟨k, hk, ?_⟩
    rw [locks]
    split
    next e' =>
      subst e'
      cases hh : (g.locks k).holder with
      | none => simpa [Lock.join, hh] using Ne.symm e
      | some y => simpa [Lock.join, hh] using hne
    next => exact hne

theorem Coherent.answers_enter (h : g.Coherent) (rest : g.Settled) (who : ε) (c : κ) :
    g.Answers (.enter who c) := by
  unfold Answers
  simp only [Gate.take, knows_view h rest]
  cases out : g.visits.get? who with
  | some v => exact ⟨g, .refl, rest, rfl⟩
  | none =>
    have hreason : g.view.haltReason? c = g.halted.get? c := rfl
    cases open_ : g.halted.get? c with
    | some reason =>
      have hstep : g.step (.arrive who c) =
          (some (.turnedAway who c (haltedError (toString c) reason)), g) := by
        simp [step, Table.has, out, open_]
      simp only [Gate.enter, hreason, open_]
      exact ⟨g, .of_step hstep, rest, rfl⟩
    | none =>
      obtain ⟨n, g₁, f⟩ := h.fetched out open_
      have hjoin : g₁.step (.join who) =
          (some (.joined who c), (g₁.setLock n ((g.locks n).join who)).seat who c (.lined n)) := by
        simp [step, f.at_, f.locks]
      have hlined := f.leads.trans (.of_step hjoin)
      simp only [Gate.enter, hreason, open_, f.lock]
      cases hh : (g.locks n).holder with
      | none =>
        have hproceed : ((g₁.setLock n ((g.locks n).join who)).seat who c (.lined n)).step (.proceed who) =
            (some (.admitted who c),
              ((g₁.setLock n ((g.locks n).join who)).seat who c (.lined n)).seat who c (.inside n)) := by
          simp [step, SharedGate.seat, SharedGate.setLock, Lock.join, hh, f.halted, open_]
        refine ⟨_, hlined.trans (.of_step hproceed), ?_, ?_⟩
        · refine settled_of_joined rest who n (seat_visits_self ..) (fun x hx => ?_) (fun k => ?_) (.inl rfl)
          · rw [seat_visits, if_neg hx, seat_visits, if_neg hx]
            exact f.others x hx
          · simp [SharedGate.seat, f.locks]
        · refine (f.view _).trans ?_
          simp [Lock.join, hh]
      | some y =>
        have hout : who ∉ (g.locks n).line := h.not_mem_line out n
        have hy : y ≠ who := fun e => hout (by simp [Lock.line, hh, e])
        refine ⟨_, hlined, ?_, ?_⟩
        · refine settled_of_joined rest who n (seat_visits_self ..) (fun x hx => ?_) (fun k => ?_) (.inr ⟨rfl, ?_⟩)
          · rw [seat_visits, if_neg hx]
            exact f.others x hx
          · simp [SharedGate.seat, f.locks]
          · simp [Lock.join, hh, hy]
        · refine (f.view _).trans ?_
          simp [Lock.join, hh]

/-! ## Handing a lock on -/

/-- Everybody is at rest, except that the lock of one client has just been passed to the first of a queue. -/
structure Passed (g : SharedGate κ ε) (c : κ) (n : Nat) (queue : List ε) : Prop where
  coherent : g.Coherent
  has : g.table.get? c = some n
  lock : g.locks n = .passedTo queue
  rest : ∀ who v, g.visits.get? who = some v →
    (∃ k, k ≠ n ∧ v.stage = .inside k) ∨ ∃ k, v.stage = .lined k ∧ (k ≠ n → (g.locks k).holder ≠ some who)

namespace Passed

variable {c : κ} {n : Nat} {next : ε} {queue : List ε}

omit [ToString κ] in
theorem at_ (h : g.Passed c n (next :: queue)) : g.visits.get? next = some ⟨c, .lined n⟩ := by
  have hin : next ∈ (g.locks n).line := by simp [h.lock, Lock.passedTo, Lock.line]
  obtain ⟨⟨d, s⟩, hv, hs⟩ := h.coherent.line.mp hin
  have hlined : s = .lined n := by
    rcases h.rest next _ hv with ⟨k, hk, he⟩ | ⟨k, he, -⟩
    · cases he
      simp [hk] at hs
    · cases he
      simpa using hs
  cases hlined
  obtain rfl : d = c := h.coherent.number_injective (h.coherent.mapped hv rfl) h.has
  exact hv

omit [ToString κ] in
/-- Who has the lock goes away, and it passes on. -/
theorem dismiss (h : g.Passed c n (next :: queue)) : (g.dismiss next n).Passed c n queue where
  coherent := h.coherent.dismiss h.at_ (.inl rfl)
  has := h.has
  lock := by
    rw [dismiss_locks, if_pos rfl, h.lock]
    cases queue <;> simp [Lock.part, Lock.passedTo]
  rest who v hv := by
    rw [dismiss_visits] at hv
    split at hv
    next => cases hv
    next =>
      refine (h.rest who v hv).imp_right ?_
      rintro ⟨k, hk, hne⟩
      refine ⟨k, hk, fun hkn => ?_⟩
      rw [dismiss_locks, if_neg hkn]
      exact hne hkn

omit [ToString κ] in
theorem view_self (h : g.Passed c n queue) : g.view.setLock c (.passedTo queue) = g.view := by
  rw [← h.coherent.view_setLock h.has]
  refine congrArg view (congrArg (fun locks => { g with locks := locks }) (funext fun k => ?_))
  split
  next e => rw [e, h.lock]
  next => rfl

/-- The first in line is let in, or everybody in line is refused. -/
theorem hand_over (h : g.Passed c n queue) {error : Error}
    (he : error = haltedError (toString c) ((g.halted.get? c).getD "")) :
    ∃ g', Leads g
      ((Lock.handOver (g.halted.get? c).isSome queue).2.map (.refused · c error) ++
        (Lock.handOver (g.halted.get? c).isSome queue).1.holder.toList.map (.admitted · c)) g' ∧
      g'.Settled ∧ g'.view = g.view.setLock c (Lock.handOver (g.halted.get? c).isSome queue).1 := by
  induction queue generalizing g with
  | nil =>
    refine ⟨g, .refl, settled_iff.mpr fun who v hv => ?_, ?_⟩
    · rcases h.rest who v hv with ⟨k, -, hk⟩ | ⟨k, hk, hne⟩
      · exact .inl ⟨k, hk⟩
      · refine .inr ⟨k, hk, ?_⟩
        by_cases e : k = n
        · simp [e, h.lock, Lock.passedTo]
        · exact hne e
    · exact h.view_self.symm
  | cons next rest ih =>
    have hturn : (g.locks n).holder = some next := by simp [h.lock, Lock.passedTo]
    cases hh : g.halted.get? c with
    | some reason =>
      have hstep : g.step (.proceed next) = (some (.refused next c error), g.dismiss next n) := by
        simp [step, h.at_, hturn, hh, he]
      obtain ⟨g', hleads, hsettled, hview⟩ := ih h.dismiss he
      have hhalted : (g.dismiss next n).halted.get? c = some reason := hh
      rw [hhalted] at hleads hview
      refine ⟨g', ?_, hsettled, ?_⟩
      · simpa [Lock.handOver] using (Leads.of_step hstep).trans hleads
      · rw [hview, h.coherent.view_dismiss h.has, Gate.setLock_setLock]; rfl
    | none =>
      have hstep : g.step (.proceed next) =
          (some (.admitted next c), g.seat next c (.inside n)) := by
        simp [step, h.at_, hturn, hh]
      refine ⟨_, by simpa [Lock.handOver] using Leads.of_step hstep, settled_iff.mpr fun who v hv => ?_, ?_⟩
      · rw [seat_visits] at hv
        split at hv
        next => cases hv; exact .inl ⟨n, rfl⟩
        next hne' =>
          rcases h.rest who v hv with ⟨k, -, hk⟩ | ⟨k, hk, hne⟩
          · exact .inl ⟨k, hk⟩
          · refine .inr ⟨k, hk, ?_⟩
            by_cases e : k = n
            · subst e
              show (g.locks k).holder ≠ some who
              simpa [hturn] using Ne.symm hne'
            · exact hne e
      · exact h.view_self.symm

end Passed

/-! ## Every request -/

omit [ToString κ] in
/-- Whoever holds a client leaves, and the lock is passed on. -/
theorem Coherent.passed [ToString κ] (h : g.Coherent) (rest : g.Settled) {who : ε} {c : κ} {n : Nat}
    (at_ : g.visits.get? who = some ⟨c, .inside n⟩) :
    (g.dismiss who n).Passed c n (g.locks n).queue where
  coherent := h.dismiss at_ (.inr rfl)
  has := h.mapped at_ rfl
  lock := by
    rw [dismiss_locks, if_pos rfl, Lock.part, if_pos (h.inside at_)]
    cases (g.locks n).queue <;> rfl
  rest x v hv := by
    rw [dismiss_visits] at hv
    split at hv
    next => cases hv
    next hne =>
      rcases settled_iff.mp rest x v hv with ⟨k, hk⟩ | ⟨k, hk, hout⟩
      · refine .inl ⟨k, fun e => hne ?_, hk⟩
        obtain ⟨d, s⟩ := v
        cases hk
        have hx := h.inside hv
        rw [e, h.inside at_] at hx
        exact (Option.some.inj hx).symm
      · refine .inr ⟨k, hk, fun hkn => ?_⟩
        rw [dismiss_locks, if_neg hkn]
        exact hout

theorem Coherent.answers_release (h : g.Coherent) (rest : g.Settled) (who : ε) : g.Answers (.release who) := by
  unfold Answers
  by_cases hin : ∃ c n, g.visits.get? who = some ⟨c, .inside n⟩
  · obtain ⟨c, n, at_⟩ := hin
    have hleave : g.step (.leave who) = (some (.left who c), g.dismiss who n) := by simp [step, at_]
    have hhalted : g.view.isHalted c = ((g.dismiss who n).halted.get? c).isSome := rfl
    obtain ⟨g', hleads, hsettled, hview⟩ := (h.passed rest at_).hand_over rfl
    have has := h.mapped at_ rfl
    refine ⟨g', ?_, hsettled, ?_⟩
    · simp only [Gate.take, Gate.release, heldBy?_of_inside h rest at_, lock_view has, hhalted]
      have hlock : ∀ l, (g.view.setLock c l).lock c = l := fun l => by simp [Gate.lock, Gate.setLock]
      rw [hlock]
      exact (Leads.of_step hleave).trans hleads
    · simp only [Gate.take, Gate.release, heldBy?_of_inside h rest at_, lock_view has, hhalted]
      rw [hview, h.view_dismiss has, Gate.setLock_setLock]
  · have hnone := heldBy?_eq_none h rest fun c n e => hin ⟨c, n, e⟩
    simp only [Gate.take, Gate.release, hnone]
    exact ⟨g, .refl, rest, rfl⟩

theorem Coherent.answers_cancel (h : g.Coherent) (rest : g.Settled) (who : ε) : g.Answers (.cancel who) := by
  unfold Answers
  by_cases hin : ∃ c n, g.visits.get? who = some ⟨c, .lined n⟩
  · obtain ⟨c, n, at_⟩ := hin
    have hstep : g.step (.withdraw who) = (some (.withdrew who c), g.dismiss who n) := by
      simp [step, at_]
    have has := h.mapped at_ rfl
    have hne := (mem_queue h rest at_).1
    have hpart : (g.locks n).part who = { g.locks n with queue := (g.locks n).queue.filter (· ≠ who) } :=
      if_neg hne
    simp only [Gate.take, Gate.cancel, awaitedBy?_of_lined h rest at_, lock_view has]
    refine ⟨_, .of_step hstep, settled_iff.mpr fun x v hv => ?_, ?_⟩
    · rw [dismiss_visits] at hv
      split at hv
      next => cases hv
      next =>
        refine (settled_iff.mp rest x v hv).imp_right ?_
        rintro ⟨k, hk, hout⟩
        refine ⟨k, hk, ?_⟩
        rw [dismiss_locks]
        split
        next e => subst e; rw [hpart]; exact hout
        next => exact hout
    · rw [h.view_dismiss has, hpart]
  · have hnone := awaitedBy?_eq_none h fun c n e => hin ⟨c, n, e⟩
    simp only [Gate.take, hnone]
    exact ⟨g, .refl, rest, rfl⟩

/-- At rest a lock that only the table refers to is idle. -/
theorem Coherent.isIdle_iff (h : g.Coherent) (rest : g.Settled) {c : κ} {n : Nat}
    (has : g.table.get? c = some n) : (g.locks n).isIdle ↔ ¬ 1 < g.references n := by
  have hidle : (g.locks n).isIdle ↔ (g.locks n).line = [] := by
    simp [Lock.isIdle, Lock.line, List.isEmpty_iff]
  rw [hidle, h.references has, List.eq_nil_iff_forall_not_mem, not_exists]
  constructor
  · rintro hempty who ⟨v, hv, -, hlock⟩
    refine hempty who ((h.mem_line_iff hv).mpr ?_)
    rcases settled_iff.mp rest who v hv with ⟨k, hk⟩ | ⟨k, hk, -⟩
    · rw [hk] at hlock; cases hlock; exact .inr hk
    · rw [hk] at hlock; cases hlock; exact .inl hk
  · intro hnone who hin
    obtain ⟨v, hv, hlock⟩ := h.visit_of_line hin
    exact hnone who ⟨v, hv, h.number_injective (h.mapped hv hlock) has, hlock⟩

theorem Coherent.view_prune (h : g.Coherent) (rest : g.Settled) :
    g.view.prune = (g.table.size - g.prune.table.size, g.prune.view) := by
  have hkeep : (g.table.rows.map fun r => (r.1, g.locks r.2)).filter (fun r => !r.2.isIdle) =
      g.prune.table.rows.map fun r => (r.1, g.locks r.2) := by
    simp only [SharedGate.prune, Table.keep, List.filter_map]
    refine congrArg _ (List.filter_congr fun r hr => ?_)
    have hidle := h.isIdle_iff rest (h.clients.get?_of_mem hr)
    rw [Function.comp_apply, Bool.eq_iff_iff, Bool.not_eq_true', ← Bool.not_eq_true, hidle]
    simp
  simp only [Gate.prune, view, Table.keep, Table.size, hkeep, List.length_map]
  rfl

theorem Coherent.answers (h : g.Coherent) (rest : g.Settled) (r : Request κ ε) : g.Answers r := by
  have hsame : ∀ {g' : SharedGate κ ε}, g'.visits = g.visits → g'.locks = g.locks → g'.Settled := by
    intro g' hv hl
    rw [settled_iff] at rest ⊢
    rwa [hv, hl]
  cases r with
  | enter who c => exact h.answers_enter rest who c
  | release who => exact h.answers_release rest who
  | cancel who => exact h.answers_cancel rest who
  | halt c reason =>
    exact ⟨{ g with halted := g.halted.put c reason }, .of_step (m := .halt c reason) rfl, hsame rfl rfl, rfl⟩
  | resume c =>
    exact ⟨{ g with halted := g.halted.erase c }, .of_step (m := .resume c) rfl, hsame rfl rfl, rfl⟩
  | prune =>
    simp only [Answers, Gate.take, h.view_prune rest]
    exact ⟨g.prune, .of_step (m := .prune) rfl, hsame rfl rfl, rfl⟩

/-- Every run of the gate is a run of the shared gate, looked at when everybody is at rest. -/
theorem realised (rs : List (Request κ ε)) :
    ∃ ms : List (Motion κ ε), (run ms).1 = (Gate.serve rs).1 ∧ (run ms).2.Settled ∧
      (run ms).2.view = (Gate.serve rs).2 := by
  induction rs with
  | nil => exact ⟨[], rfl, settled_iff.mpr nofun, rfl⟩
  | cons r rs ih =>
    obtain ⟨ms, hsignals, hsettled, hview⟩ := ih
    obtain ⟨g', hleads, hrest, hview'⟩ := (coherent_run ms).answers hsettled r
    obtain ⟨ms', hms⟩ := hleads.run rfl
    refine ⟨ms', ?_, by rw [hms]; exact hrest, ?_⟩
    · rw [hms, hsignals, hview]
      rfl
    · rw [hms, hview', hview]
      rfl

end Rest

end SharedGate
end VoucherGateway
