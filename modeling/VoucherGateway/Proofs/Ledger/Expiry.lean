import VoucherGateway.Proofs.Ledger.Reaping

/-!
# Expiry in the ledger — what a pass does when nothing fails

A pass of the reaper aborts the queries that expire, closes the sessions that lapse, and forgets what has been
finished for long enough.  Queries expire and sessions lapse independently of one another, so the order in which
they come up does not matter: what the pass comes to is said of the tables as a whole (`Reaped`).

Main statements: `Reaped.unique`, and that a second pass as of the same time does nothing (`Reaped.again`).
-/

namespace VoucherGateway

variable {S : Scheme}

/-! ## Changing the rows that a test picks -/

section Rows

variable {ρ κ : Type} {p p' : ρ → Bool} {f : ρ → ρ} {rows : List ρ}

/-- The rows, with those changed that a test picks. -/
def changeWhere (p : ρ → Bool) (f : ρ → ρ) (rows : List ρ) : List ρ := rows.map fun r => if p r then f r else r

theorem changeWhere_of_none (h : ∀ r ∈ rows, p r = false) : changeWhere p f rows = rows := by
  refine (List.map_congr_left fun r hr => ?_).trans (List.map_id' rows)
  rw [h r hr]
  rfl

theorem changeWhere_congr (h : ∀ r ∈ rows, p r = p' r) : changeWhere p f rows = changeWhere p' f rows :=
  List.map_congr_left fun r hr => by rw [h r hr]

theorem mem_changeWhere {r' : ρ} (h : r' ∈ changeWhere p f rows) :
    (∃ r ∈ rows, p r = true ∧ r' = f r) ∨ r' ∈ rows ∧ p r' = false := by
  obtain ⟨r, hr, rfl⟩ := List.mem_map.1 h
  cases hp : p r with
  | true => exact .inl ⟨r, hr, hp, rfl⟩
  | false => exact .inr ⟨hr, hp⟩

theorem mem_changeWhere_of_not {r : ρ} (hr : r ∈ rows) (hp : p r = false) : r ∈ changeWhere p f rows :=
  List.mem_map.2 ⟨r, hr, by rw [hp]; rfl⟩

/-- Rows that were changed are not picked again. -/
theorem changeWhere_changeWhere (h : ∀ r ∈ rows, p r = true → p' (f r) = false) :
    changeWhere p' f (changeWhere p f rows) = changeWhere (fun r => p r || p' r) f rows := by
  unfold changeWhere
  rw [List.map_map]
  refine List.map_congr_left fun r hr => ?_
  cases hp : p r with
  | true => simp [hp, h r hr hp]
  | false => simp [hp]

theorem countP_changeWhere (h : ∀ r ∈ rows, p r = true → p' (f r) = false) :
    rows.countP p + (changeWhere p f rows).countP p' = rows.countP fun r => p r || p' r := by
  unfold changeWhere
  -- a row that was picked first counts once, in the first count
  induction rows with
  | nil => rfl
  | cons r rest ih =>
    have ih := ih fun x hx => h x (List.mem_cons_of_mem r hx)
    have hr := h r List.mem_cons_self
    simp only [List.map_cons, List.countP_cons]
    cases hp : p r with
    | true =>
      simp only [if_true, hr hp, Bool.true_or, Bool.false_eq_true, if_false]
      omega
    | false =>
      simp only [Bool.false_or, Bool.false_eq_true, if_false]
      omega

/-- What is picked among the rows of one key is the row of that key, or nothing. -/
theorem countP_of_key [DecidableEq κ] {key : ρ → κ} (hn : (rows.map key).Nodup) {r : ρ} (hr : r ∈ rows)
    (p : ρ → Bool) : (rows.countP fun x => decide (key x = key r) && p x) = (p r).toNat := by
  have same : ∀ x ∈ rows, key x = key r → x = r := fun x hx h => List.inj_on_of_nodup_map hn hx hr h
  cases hp : p r with
  | false =>
    refine List.countP_eq_zero.2 fun x hx => ?_
    rw [Bool.and_eq_true, decide_eq_true_eq]
    rintro ⟨hkey, hpx⟩
    rw [same x hx hkey, hp] at hpx
    cases hpx
  | true =>
    -- the key occurs once among the keys
    have hone : (rows.map key).count (key r) = 1 := List.count_eq_one_of_mem hn (List.mem_map_of_mem hr)
    rw [List.count, List.countP_map] at hone
    refine (List.countP_congr fun x hx => ?_).trans hone
    simp only [Bool.and_eq_true, decide_eq_true_eq, Function.comp_apply, beq_iff_eq, and_iff_left_iff_imp]
    intro hkey
    rw [same x hx hkey, hp]

/-- The key of a row is among those of the rows picked exactly if the row is picked. -/
theorem key_mem_picked {key : ρ → κ} (hn : (rows.map key).Nodup) {r : ρ} (hr : r ∈ rows) :
    key r ∈ (rows.filter p).map key ↔ p r = true := by
  refine ⟨fun h => ?_, fun h => List.mem_map_of_mem (List.mem_filter.2 ⟨hr, h⟩)⟩
  obtain ⟨x, hx, hkey⟩ := List.mem_map.1 h
  obtain ⟨hx, hpx⟩ := List.mem_filter.1 hx
  exact List.inj_on_of_nodup_map hn hx hr hkey ▸ hpx

/-- A sum loses what the rows contributed that were changed, if they contribute nothing any more. -/
theorem sum_changeWhere {w : ρ → Nat} (h : ∀ r, w (f r) = 0) (p : ρ → Bool) (rows : List ρ) :
    ((changeWhere p f rows).map w).sum + ((rows.filter p).map w).sum = (rows.map w).sum := by
  unfold changeWhere
  induction rows with
  | nil => rfl
  | cons r rest ih =>
    cases hp : p r with
    | true =>
      simp only [List.map_cons, List.sum_cons, List.filter_cons, hp, if_true, h]
      omega
    | false =>
      simp only [List.map_cons, List.sum_cons, List.filter_cons, hp, Bool.false_eq_true, if_false]
      omega

/-- What is dropped and what is kept are all there is. -/
theorem length_sub_filter (p : ρ → Bool) (rows : List ρ) :
    rows.length - (rows.filter fun r => !p r).length = rows.countP p := by
  have h := List.length_eq_countP_add_countP p (l := rows)
  have hdropped : (rows.countP fun r => decide (¬p r = true)) = (rows.filter fun r => !p r).length := by
    rw [← List.countP_eq_length_filter]
    exact List.countP_congr fun r _ => by simp
  omega

end Rows

/-! ## The numbers of sessions -/

/-- Every session on record has a number of its own, which was given out. -/
structure SessionTable.Numbered (t : SessionTable S) : Prop where
  nodup : (t.rows.map (·.id)).Nodup
  below : ∀ s ∈ t.rows, s.id.number < t.next

namespace SessionTable.Numbered

variable {t : SessionTable S}

theorem update (h : t.Numbered) (id : SessionId) {f : Session S → Session S} (hf : ∀ s, (f s).id = s.id) :
    (t.update id f).Numbered := by
  have hid : ∀ s : Session S, (if s.id = id then f s else s).id = s.id := fun s => by
    split
    · exact hf s
    · rfl
  have hids : (t.update id f).rows.map (·.id) = t.rows.map (·.id) := by
    simp only [SessionTable.update, List.map_map]
    exact List.map_congr_left fun s _ => hid s
  refine ⟨hids.symm ▸ h.nodup, fun s' hs' => ?_⟩
  obtain ⟨s, hs, rfl⟩ := List.mem_map.1 hs'
  rw [hid]
  exact h.below s hs

theorem openSession (h : t.Numbered) (client vendor : S.Party) (chainHead : UInt64) (now : Nat) :
    (t.openSession client vendor chainHead now).2.Numbered where
  nodup := by
    have hnew : (⟨t.next⟩ : SessionId) ∉ t.rows.map (·.id) := by
      intro hmem
      obtain ⟨s, hs, hid⟩ := List.mem_map.1 hmem
      have hlt := h.below s hs
      rw [hid] at hlt
      exact Nat.lt_irrefl _ hlt
    simp only [SessionTable.openSession, List.map_append, List.map_cons, List.map_nil]
    exact List.nodup_append_comm.1 (List.nodup_cons.2 ⟨hnew, h.nodup⟩)
  below s hs := by
    rcases List.mem_append.1 hs with hs | hs
    · exact Nat.lt_succ_of_lt (h.below s hs)
    · rw [List.mem_singleton.1 hs]
      exact Nat.lt_succ_self _

theorem purge (h : t.Numbered) (now retention : Nat) : (t.purge now retention).Numbered where
  nodup := h.nodup.sublist (List.filter_sublist.map _)
  below s hs := h.below s (List.mem_filter.1 hs).1

theorem post {L : Ledger S} (h : L.sessions.Numbered) (e : Entry S) : (L.post e).sessions.Numbered := by
  cases e with
  | opened client nonce time => exact h.openSession client L.vendor nonce time
  | renewed id head time => exact h.update id fun _ => rfl
  | closed id time => exact h.update id fun _ => rfl
  | purged asOf retention => exact h.purge asOf retention
  | _ => exact h

theorem trail {allowed : Entry S → Prop} {L M : Ledger S} (h : L.sessions.Numbered)
    (ht : Ledger.Trail allowed L M) : M.sessions.Numbered := by
  induction ht with
  | refl => exact h
  | tail _ hstep ih =>
    obtain ⟨e, -, -, rfl⟩ := hstep
    exact ih.post e

end SessionTable.Numbered

/-! ## What a pass looks for -/

/-- A query that was aborted at a time for being overdue; its estimate is unlocked. -/
def Query.expired (q : Query S) (time : Nat) : Query S :=
  { q with state := .aborted, finishedAt := some time, forced := true, released := true }

/-- A query that is not finished is not forgotten. -/
theorem Query.Sound.not_stale {q : Query S} (h : q.Sound) (hst : q.state = .locked) (now retention : Nat) :
    q.isStale now retention = false := by
  have hnone : q.finishedAt = none := by
    refine Option.not_isSome_iff_eq_none.1 fun hsome => ?_
    exact h.finished_iff.1 hsome hst
  unfold Query.isStale
  rw [hnone]
  rfl

/-- A session that was closed at a time. -/
def Session.lapsed (s : Session S) (time : Nat) : Session S := { s with closedAt := some time }

namespace Ledger

variable {L M N : Ledger S}

/-- Whether a pass as of a time aborts a query: it is overdue, and its client is not halted. -/
def expires (L : Ledger S) (asOf : Nat) (q : Query S) : Bool :=
  q.isOverdue asOf L.config.engine.queryDeadline && (L.halted.get? q.client).isNone

theorem locked_of_expires {asOf : Nat} {q : Query S} (h : L.expires asOf q = true) : q.state = .locked := by
  simp only [expires, Query.isOverdue, Bool.and_eq_true, decide_eq_true_eq] at h
  exact h.1.1

/-- Whether a session is closed as of a time: it is idle, its client is not halted, and it has no locked query. -/
def lapses (L : Ledger S) (asOf : Nat) (s : Session S) : Bool :=
  s.isIdle asOf L.config.engine.sessionIdleTimeout && (L.halted.get? s.client).isNone &&
    !L.queries.hasLockedIn s.id

/-- Whether a session is closed as of a time once some queries are aborted: those no longer count. -/
def lapsesWithout (L : Ledger S) (aborted : Query S → Bool) (asOf : Nat) (s : Session S) : Bool :=
  s.isIdle asOf L.config.engine.sessionIdleTimeout && (L.halted.get? s.client).isNone &&
    !L.queries.rows.any fun q => decide (q.session = s.id) && decide (q.state = .locked) && !aborted q

/-! ## Aborting -/

/-- Whether or not its estimate was unlocked before, a query is replaced when it is aborted. -/
theorem rows_aborting (L : Ledger S) (q : Query S) (time : Nat) :
    (L.aborting q true time).queries.rows =
      L.queries.rows.map fun x => if x.id = q.id then q.expired time else x := by
  unfold aborting unlocking
  split
  · rfl
  · simp only [post, QueryTable.update, List.map_map]
    refine List.map_congr_left fun x _ => ?_
    dsimp only [Function.comp_apply]
    by_cases hid : x.id = q.id
    · simp only [hid, if_true]
      rfl
    · simp only [hid, if_false]

/-- The queries that a test picks were aborted at a time, so many of them, and nothing else happened. -/
structure Expired (L : Ledger S) (picked : Query S → Bool) (time n : Nat) (M : Ledger S) : Prop where
  sound : M.Sound
  queries : M.queries.rows = changeWhere picked (·.expired time) L.queries.rows
  count : n = L.queries.rows.countP picked
  counters : M.counters = (Counters.count · (.queryAborted true))^[n] L.counters
  untouched : n = 0 → M.locked = L.locked
  rest : M = { L with
    queries := { L.queries with rows := M.queries.rows }
    locked := M.locked
    counters := M.counters }

namespace Expired

variable {p p' : Query S → Bool} {time n m : Nat}

theorem config (h : L.Expired p time n M) : M.config = L.config := by rw [h.rest]

theorem halted (h : L.Expired p time n M) : M.halted = L.halted := by rw [h.rest]

theorem sessions (h : L.Expired p time n M) : M.sessions = L.sessions := by rw [h.rest]

/-- Where a test picks nothing, nothing happened. -/
theorem none (hL : L.Sound) (h : ∀ q ∈ L.queries.rows, p q = false) (time : Nat) : L.Expired p time 0 L where
  sound := hL
  queries := (changeWhere_of_none h).symm
  count := (List.countP_eq_zero.2 fun q hq => by simp [h q hq]).symm
  counters := rfl
  untouched _ := rfl
  rest := rfl

theorem congr (h : L.Expired p time n M) (hsame : ∀ q ∈ L.queries.rows, p q = p' q) : L.Expired p' time n M :=
  { h with
    queries := h.queries.trans (changeWhere_congr hsame)
    count := h.count.trans (List.countP_congr fun q hq => by rw [hsame q hq]) }

theorem trans (h : L.Expired p time n M) (h' : M.Expired p' time m N)
    (hdone : ∀ q ∈ L.queries.rows, p q = true → p' (q.expired time) = false) :
    L.Expired (fun q => p q || p' q) time (n + m) N where
  sound := h'.sound
  queries := by rw [h'.queries, h.queries, changeWhere_changeWhere hdone]
  count := by rw [h'.count, h.count, h.queries, countP_changeWhere hdone]
  counters := by rw [h'.counters, h.counters, ← Function.iterate_add_apply, Nat.add_comm]
  untouched hnone := (h'.untouched (by omega)).trans (h.untouched (by omega))
  rest := by
    rw [h'.rest, h.rest]

/-- One query is aborted. -/
theorem one (hL : L.Sound) {q : Query S} (hq : q ∈ L.queries.rows) (hst : q.state = .locked) (time : Nat) :
    L.Expired (fun x => decide (x.id = q.id)) time 1 (L.aborting q true time) where
  sound := hL.trail (trail_aborting hL hq hst true time)
  queries := by
    rw [rows_aborting]
    refine List.map_congr_left fun x hx => ?_
    by_cases hid : x.id = q.id
    · obtain rfl := hL.same hx hq hid
      simp only [if_true, decide_true]
    · simp only [hid, decide_false, if_false, Bool.false_eq_true]
  count := by
    have h := countP_of_key hL.numbered.nodup hq fun _ => true
    simp only [Bool.and_true] at h
    exact h.symm
  counters := by
    unfold aborting unlocking
    split <;> rfl
  untouched h := by cases h
  rest := by
    unfold aborting unlocking
    split <;> rfl

/-- Every estimate that was still locked is unlocked, once. -/
theorem lockedOf (h : L.Expired p time n M) (hL : L.Sound) (c : S.Party) :
    (M.lockedOf c).toNat + ((L.queries.rows.filter p).map (Query.heldFor c)).sum = (L.lockedOf c).toNat := by
  have hnone : ∀ q : Query S, (q.expired time).heldFor c = 0 := fun q => if_neg nofun
  rw [h.sound.locked, hL.locked, h.queries]
  exact sum_changeWhere hnone p L.queries.rows

end Expired

/-- Some of the queries that are due were aborted at a time, all of them if the store answered. -/
def Attempted (L : Ledger S) (due : Query S → Bool) (answering : Prop) (time n : Nat) (M : Ledger S) : Prop :=
  ∃ aborted : Query S → Bool, (∀ q ∈ L.queries.rows, aborted q = true → due q = true) ∧
    (answering → ∀ q ∈ L.queries.rows, aborted q = due q) ∧ L.Expired aborted time n M

namespace Attempted

variable {due due' : Query S → Bool} {answering answering' : Prop} {time n m : Nat}

theorem sound (h : L.Attempted due answering time n M) : M.Sound := by
  obtain ⟨_, -, -, hexpired⟩ := h
  exact hexpired.sound

theorem halted (h : L.Attempted due answering time n M) : M.halted = L.halted := by
  obtain ⟨_, -, -, hexpired⟩ := h
  exact hexpired.halted

theorem mem_queries (h : L.Attempted due answering time n M) {q' : Query S} (hq' : q' ∈ M.queries.rows) :
    (∃ q ∈ L.queries.rows, due q = true ∧ q' = q.expired time) ∨ q' ∈ L.queries.rows := by
  obtain ⟨aborted, hdue, -, hexpired⟩ := h
  rw [hexpired.queries] at hq'
  rcases mem_changeWhere hq' with ⟨q, hq, hab, rfl⟩ | ⟨hq', -⟩
  · exact .inl ⟨q, hq, hdue q hq hab, rfl⟩
  · exact .inr hq'

/-- If the store answered, all that were due were aborted. -/
theorem expired (h : L.Attempted due answering time n M) (ha : answering) : L.Expired due time n M := by
  obtain ⟨aborted, -, hall, hexpired⟩ := h
  exact hexpired.congr (hall ha)

/-- What was aborted is either some of what was due, or all of it. -/
theorem aborted (h : L.Attempted due answering time n M) :
    ∃ aborted, (∀ q ∈ L.queries.rows, aborted q = true → due q = true) ∧ (answering → aborted = due) ∧
      L.Expired aborted time n M := by
  by_cases ha : answering
  · exact ⟨due, fun _ _ hdue => hdue, fun _ => rfl, h.expired ha⟩
  · obtain ⟨aborted, hdue, -, hexpired⟩ := h
    exact ⟨aborted, hdue, fun h => absurd h ha, hexpired⟩

theorem of_expired (h : L.Expired due time n M) : L.Attempted due answering time n M :=
  ⟨due, fun _ _ hdue => hdue, fun _ _ _ => rfl, h⟩

/-- Nothing was done about what was due, for want of an answer. -/
theorem unanswered (hL : L.Sound) (h : ¬ answering) (due : Query S → Bool) (time : Nat) :
    L.Attempted due answering time 0 L :=
  ⟨fun _ => false, fun _ _ => nofun, fun ha => absurd ha h, .none hL (fun _ _ => rfl) time⟩

theorem congr (h : L.Attempted due answering time n M) (hsame : ∀ q ∈ L.queries.rows, due q = due' q) :
    L.Attempted due' answering time n M := by
  obtain ⟨aborted, hdue, hall, hexpired⟩ := h
  exact ⟨aborted, fun q hq hab => hsame q hq ▸ hdue q hq hab, fun ha q hq => (hall ha q hq).trans (hsame q hq),
    hexpired⟩

theorem trans (h : L.Attempted due answering time n M) (h' : M.Attempted due' answering' time m N)
    (himp : answering → answering')
    (hdone : ∀ q ∈ L.queries.rows, due q = true → due' (q.expired time) = false) :
    L.Attempted (fun q => due q || due' q) answering time (n + m) N := by
  obtain ⟨aborted, hdue, hall, hexpired⟩ := h
  obtain ⟨aborted', hdue', hall', hexpired'⟩ := h'
  have hmem : ∀ q ∈ L.queries.rows, aborted q = false → q ∈ M.queries.rows := fun q hq hnot => by
    rw [hexpired.queries]
    exact mem_changeWhere_of_not hq hnot
  refine ⟨fun q => aborted q || aborted' q, fun q hq hab => ?_, fun ha q hq => ?_, hexpired.trans hexpired' ?_⟩
  · dsimp only at hab ⊢
    cases hfirst : aborted q with
    | true => rw [hdue q hq hfirst, Bool.true_or]
    | false =>
      rw [hfirst, Bool.false_or] at hab
      rw [hdue' q (hmem q hq hfirst) hab, Bool.or_true]
  · dsimp only
    cases hfirst : aborted q with
    | true => rw [hdue q hq hfirst, Bool.true_or, Bool.true_or]
    | false => rw [← hall ha q hq, hfirst, hall' (himp ha) q (hmem q hq hfirst)]
  · intro q hq hab
    -- the second attempt aborts only what is due for it, and what the first aborted is not
    have hexpiredMem : q.expired time ∈ M.queries.rows := by
      rw [hexpired.queries]
      exact List.mem_map.2 ⟨q, hq, if_pos hab⟩
    rw [← Bool.not_eq_true]
    intro hagain
    exact Bool.false_ne_true ((hdone q hq (hdue q hq hab)).symm.trans (hdue' _ hexpiredMem hagain))

end Attempted

/-! ## Closing -/

/-- The sessions that a test picks were closed at a time, so many of them, and nothing else happened. -/
structure Closed (L : Ledger S) (picked : Session S → Bool) (time n : Nat) (M : Ledger S) : Prop where
  sessions : M.sessions.rows = changeWhere picked (·.lapsed time) L.sessions.rows
  count : n = L.sessions.rows.countP picked
  counters : M.counters = (Counters.count · .sessionClosed)^[n] L.counters
  rest : M = { L with sessions := { L.sessions with rows := M.sessions.rows }, counters := M.counters }

namespace Closed

variable {p p' : Session S → Bool} {time n m : Nat}

theorem none (h : ∀ s ∈ L.sessions.rows, p s = false) (time : Nat) : L.Closed p time 0 L where
  sessions := (changeWhere_of_none h).symm
  count := (List.countP_eq_zero.2 fun s hs => by simp [h s hs]).symm
  counters := rfl
  rest := rfl

theorem congr (h : L.Closed p time n M) (hsame : ∀ s ∈ L.sessions.rows, p s = p' s) : L.Closed p' time n M :=
  { h with
    sessions := h.sessions.trans (changeWhere_congr hsame)
    count := h.count.trans (List.countP_congr fun s hs => by rw [hsame s hs]) }

theorem trans (h : L.Closed p time n M) (h' : M.Closed p' time m N)
    (hdone : ∀ s ∈ L.sessions.rows, p s = true → p' (s.lapsed time) = false) :
    L.Closed (fun s => p s || p' s) time (n + m) N where
  sessions := by rw [h'.sessions, h.sessions, changeWhere_changeWhere hdone]
  count := by rw [h'.count, h.count, h.sessions, countP_changeWhere hdone]
  counters := by rw [h'.counters, h.counters, ← Function.iterate_add_apply, Nat.add_comm]
  rest := by rw [h'.rest, h.rest]

/-- One session is closed. -/
theorem one (hn : L.sessions.Numbered) {s : Session S} (hs : s ∈ L.sessions.rows) (time : Nat) :
    L.Closed (fun x => decide (x.id = s.id)) time 1 (L.post (.closed s.id time)) where
  sessions := by
    refine List.map_congr_left fun x _ => ?_
    simp only [decide_eq_true_eq]
    rfl
  count := by
    have h := countP_of_key hn.nodup hs fun _ => true
    simp only [Bool.and_true] at h
    exact h.symm
  counters := rfl
  rest := rfl

/-- Closed sessions keep their numbers. -/
theorem numbered (h : L.Closed p time n M) (hn : L.sessions.Numbered) : M.sessions.Numbered := by
  have hid : ∀ s : Session S, (if p s then s.lapsed time else s).id = s.id := fun s => by split <;> rfl
  have hids : M.sessions.rows.map (·.id) = L.sessions.rows.map (·.id) := by
    rw [h.sessions, changeWhere, List.map_map]
    exact List.map_congr_left fun s _ => hid s
  have hnext : M.sessions.next = L.sessions.next := by rw [h.rest]
  refine ⟨hids.symm ▸ hn.nodup, fun s' hs' => ?_⟩
  rw [h.sessions] at hs'
  obtain ⟨s, hs, rfl⟩ := List.mem_map.1 hs'
  rw [hid, hnext]
  exact hn.below s hs

/-- Which sessions lapse does not depend on what other sessions were closed. -/
theorem lapses (h : L.Closed p time n M) (asOf : Nat) (s : Session S) : M.lapses asOf s = L.lapses asOf s := by
  rw [h.rest]
  rfl

end Closed

/-! ## A pass as a whole -/

/-- What a pass as of a time, at another time of the clock, comes to if it aborts certain queries. -/
structure Reaped (L : Ledger S) (aborted : Query S → Bool) (asOf time : Nat) (report : ReapReport)
    (M : Ledger S) : Prop where
  forceAborted : report.forceAborted = L.queries.rows.countP aborted
  sessionsClosed : report.sessionsClosed = L.sessions.rows.countP (L.lapsesWithout aborted asOf)
  queriesPurged : report.queriesPurged = (changeWhere aborted (·.expired time) L.queries.rows).countP
    (·.isStale asOf L.config.engine.queryRetention)
  sessionsPurged : report.sessionsPurged =
    (changeWhere (L.lapsesWithout aborted asOf) (·.lapsed asOf) L.sessions.rows).countP
      (·.isStale asOf L.config.engine.queryRetention)
  queries : M.queries.rows = (changeWhere aborted (·.expired time) L.queries.rows).filter
    fun q => !q.isStale asOf L.config.engine.queryRetention
  sessions : M.sessions.rows =
    (changeWhere (L.lapsesWithout aborted asOf) (·.lapsed asOf) L.sessions.rows).filter
      fun s => !s.isStale asOf L.config.engine.queryRetention
  locked : ∀ c, (M.lockedOf c).toNat + ((L.queries.rows.filter aborted).map (Query.heldFor c)).sum =
    (L.lockedOf c).toNat
  untouched : report.forceAborted = 0 → M.locked = L.locked
  counters : M.counters = (Counters.count · .sessionClosed)^[report.sessionsClosed]
    ((Counters.count · (.queryAborted true))^[report.forceAborted] L.counters)
  rest : M = { L with
    queries := { L.queries with rows := M.queries.rows }
    sessions := { L.sessions with rows := M.sessions.rows }
    locked := M.locked
    counters := M.counters }

/-- A query that is aborted does not keep its session open. -/
theorem Expired.lapses {aborted : Query S → Bool} {time n : Nat} (h : L.Expired aborted time n M) (asOf : Nat)
    (s : Session S) : M.lapses asOf s = L.lapsesWithout aborted asOf s := by
  have hlocked : M.queries.hasLockedIn s.id = L.queries.rows.any fun q =>
      decide (q.session = s.id) && decide (q.state = .locked) && !aborted q := by
    unfold QueryTable.hasLockedIn
    rw [h.queries, changeWhere, List.any_map]
    congr 1
    funext q
    dsimp only [Function.comp_apply]
    -- a query that is aborted is no longer locked
    cases aborted q with
    | true => simp [Query.expired]
    | false => simp
  unfold Ledger.lapses lapsesWithout
  rw [hlocked, h.config, h.halted]

/-- The parts of a pass, one after another. -/
theorem Expired.reaped {aborted : Query S → Bool} {asOf time n m : Nat} {K : Ledger S}
    (h : L.Expired aborted time n K) (hL : L.Sound) (h' : K.Closed (K.lapses asOf) asOf m M) :
    let N := M.post (.purged asOf L.config.engine.queryRetention)
    L.Reaped aborted asOf time
      ⟨n, m, M.queries.rows.length - N.queries.rows.length, M.sessions.rows.length - N.sessions.rows.length⟩ N := by
  intro N
  have hqueries : M.queries.rows = changeWhere aborted (·.expired time) L.queries.rows := by
    rw [← h.queries, h'.rest]
  have hsessions :
      M.sessions.rows = changeWhere (L.lapsesWithout aborted asOf) (·.lapsed asOf) L.sessions.rows := by
    rw [h'.sessions, h.sessions]
    exact changeWhere_congr fun s _ => h.lapses asOf s
  have hlocked : M.locked = K.locked := by rw [h'.rest]
  -- closing and aborting touch different tables, so what neither touches is as it was at the beginning
  have hrest : M = { L with
      queries := { L.queries with rows := M.queries.rows }
      sessions := { L.sessions with rows := M.sessions.rows }
      locked := M.locked
      counters := M.counters } := by
    have hrows : M.queries.rows = K.queries.rows := by rw [h'.rest]
    rw [hrows, hlocked]
    exact h'.rest.trans (by rw [h.rest])
  exact {
    forceAborted := h.count
    sessionsClosed := by
      rw [h'.count, h.sessions]
      exact List.countP_congr fun s _ => by rw [h.lapses asOf s]
    queriesPurged := by
      rw [← hqueries]
      exact length_sub_filter _ _
    sessionsPurged := by
      rw [← hsessions]
      exact length_sub_filter _ _
    queries := by
      rw [← hqueries]
      rfl
    sessions := by
      rw [← hsessions]
      rfl
    locked := fun c => by
      rw [← h.lockedOf hL c]
      change (M.lockedOf c).toNat + _ = _
      unfold Ledger.lockedOf
      rw [hlocked]
    untouched := fun hnone => hlocked.trans (h.untouched hnone)
    counters := by
      rw [← h.counters, ← h'.counters]
      rfl
    rest := congrArg (fun M' : Ledger S => M'.post (.purged asOf L.config.engine.queryRetention)) hrest }

namespace Reaped

variable {aborted aborted' : Query S → Bool} {asOf time later : Nat} {report report' : ReapReport}

theorem config (h : L.Reaped aborted asOf time report M) : M.config = L.config := by rw [h.rest]

theorem halted (h : L.Reaped aborted asOf time report M) : M.halted = L.halted := by rw [h.rest]

/-- A query is on record afterwards exactly if it was before, maybe aborted now, and is not to be forgotten. -/
theorem mem_queries (h : L.Reaped aborted asOf time report M) {q : Query S} (hq : q ∈ L.queries.rows) :
    (if aborted q then q.expired time else q) ∈ M.queries.rows ↔
      (if aborted q then q.expired time else q).isStale asOf L.config.engine.queryRetention = false := by
  rw [h.queries, List.mem_filter, Bool.not_eq_true']
  exact and_iff_right (List.mem_map_of_mem hq)

/-- What is on record afterwards was there before, and may be aborted now. -/
theorem row (h : L.Reaped aborted asOf time report M) (hL : L.Sound) {q q' : Query S} (hq : q ∈ L.queries.rows)
    (hq' : q' ∈ M.queries.rows) (hid : q'.id = q.id) : q' = if aborted q then q.expired time else q := by
  rw [h.queries] at hq'
  obtain ⟨r, hr, rfl⟩ := List.mem_map.1 (List.mem_filter.1 hq').1
  have hkeeps : (if aborted r then r.expired time else r).id = r.id := by split <;> rfl
  rw [hL.same hr hq (hkeeps.symm.trans hid)]

/-- The number of a query stays on record exactly if the query is not to be forgotten. -/
theorem on_record_iff (h : L.Reaped aborted asOf time report M) (hL : L.Sound) {q : Query S}
    (hq : q ∈ L.queries.rows) :
    (∃ q' ∈ M.queries.rows, q'.id = q.id) ↔
      (if aborted q then q.expired time else q).isStale asOf L.config.engine.queryRetention = false := by
  rw [← h.mem_queries hq]
  refine ⟨?_, fun hmem => ⟨_, hmem, by split <;> rfl⟩⟩
  rintro ⟨q', hq', hid⟩
  exact h.row hL hq hq' hid ▸ hq'

/-- What a pass comes to is told by what it finds and what it aborts. -/
theorem unique (h : L.Reaped aborted asOf time report M) (h' : L.Reaped aborted asOf time report' N) :
    report' = report ∧ N = { M with locked := N.locked } ∧ ∀ c, N.lockedOf c = M.lockedOf c := by
  have haborted := h'.forceAborted.trans h.forceAborted.symm
  have hclosed := h'.sessionsClosed.trans h.sessionsClosed.symm
  refine ⟨?_, ?_, fun c => UInt64.toNat_inj.1 ?_⟩
  · have hqueries := h'.queriesPurged.trans h.queriesPurged.symm
    have hsessions := h'.sessionsPurged.trans h.sessionsPurged.symm
    cases report
    cases report'
    simp only [ReapReport.mk.injEq]
    exact ⟨haborted, hclosed, hqueries, hsessions⟩
  · have hcounters : N.counters = M.counters := by rw [h'.counters, h.counters, haborted, hclosed]
    have hrest := h'.rest
    rw [h'.queries, h'.sessions, hcounters, ← h.queries, ← h.sessions] at hrest
    rw [h.rest]
    exact hrest
  · have hlocked := h.locked c
    have hlocked' := h'.locked c
    omega

/-! ### A second pass -/

/-- The queries that expired are final, and the others do not expire the second time either. -/
theorem expires_after (h : L.Reaped (L.expires asOf) asOf time report M) {q : Query S} (hq : q ∈ M.queries.rows) :
    M.expires asOf q = false := by
  have hsame : ∀ x, M.expires asOf x = L.expires asOf x := fun x => by
    unfold Ledger.expires
    rw [h.config, h.halted]
  rw [h.queries] at hq
  rw [hsame]
  rcases mem_changeWhere (List.mem_filter.1 hq).1 with ⟨r, -, -, rfl⟩ | ⟨-, hnot⟩
  · rfl
  · exact hnot

/-- A session that stayed open is held open by a query that stayed locked. -/
theorem lapses_after (h : L.Reaped (L.expires asOf) asOf time report M) (hL : L.Sound) {s : Session S}
    (hs : s ∈ M.sessions.rows) : M.lapsesWithout (M.expires asOf) asOf s = false := by
  rw [h.sessions] at hs
  rcases mem_changeWhere (List.mem_filter.1 hs).1 with ⟨r, -, -, rfl⟩ | ⟨-, hnot⟩
  · rfl
  · unfold lapsesWithout at hnot ⊢
    rw [h.config, h.halted]
    cases hidle : s.isIdle asOf L.config.engine.sessionIdleTimeout && (L.halted.get? s.client).isNone with
    | false => rfl
    | true =>
      rw [hidle, Bool.true_and, Bool.not_eq_false'] at hnot
      obtain ⟨q, hq, hkeeps⟩ := List.any_eq_true.1 hnot
      simp only [Bool.and_eq_true, decide_eq_true_eq, Bool.not_eq_true'] at hkeeps
      obtain ⟨⟨hsession, hst⟩, hstays⟩ := hkeeps
      have hmem : q ∈ M.queries.rows := by
        have hkept := h.mem_queries hq
        rw [hstays, if_neg Bool.false_ne_true] at hkept
        exact hkept.2 ((hL.rows q hq).not_stale hst asOf _)
      rw [Bool.true_and, Bool.not_eq_false']
      refine List.any_eq_true.2 ⟨q, hmem, ?_⟩
      simp only [Bool.and_eq_true, decide_eq_true_eq, Bool.not_eq_true']
      exact ⟨⟨hsession, hst⟩, h.expires_after hmem⟩

/-- A second pass as of the same time finds nothing to do. -/
theorem again (h : L.Reaped (L.expires asOf) asOf time report M) (hL : L.Sound)
    (h' : M.Reaped (M.expires asOf) asOf later report' N) : report' = ⟨0, 0, 0, 0⟩ ∧ N = M := by
  have hqueries : changeWhere (M.expires asOf) (·.expired later) M.queries.rows = M.queries.rows :=
    changeWhere_of_none fun _ hq => h.expires_after hq
  have hsessions :
      changeWhere (M.lapsesWithout (M.expires asOf) asOf) (·.lapsed asOf) M.sessions.rows = M.sessions.rows :=
    changeWhere_of_none fun _ hs => h.lapses_after hL hs
  -- what the first pass kept is not to be forgotten as of its own time
  have hfresh : ∀ q ∈ M.queries.rows, q.isStale asOf M.config.engine.queryRetention = false := by
    intro q hq
    rw [h.queries] at hq
    rw [h.config]
    simpa using (List.mem_filter.1 hq).2
  have hfreshSessions : ∀ s ∈ M.sessions.rows, s.isStale asOf M.config.engine.queryRetention = false := by
    intro s hs
    rw [h.sessions] at hs
    rw [h.config]
    simpa using (List.mem_filter.1 hs).2
  have haborted : report'.forceAborted = 0 :=
    h'.forceAborted.trans (List.countP_eq_zero.2 fun q hq => by simp [h.expires_after hq])
  have hclosed : report'.sessionsClosed = 0 :=
    h'.sessionsClosed.trans (List.countP_eq_zero.2 fun s hs => by simp [h.lapses_after hL hs])
  refine ⟨?_, ?_⟩
  · have hpurged : report'.queriesPurged = 0 := by
      rw [h'.queriesPurged, hqueries]
      exact List.countP_eq_zero.2 fun q hq => by simp [hfresh q hq]
    have hpurgedSessions : report'.sessionsPurged = 0 := by
      rw [h'.sessionsPurged, hsessions]
      exact List.countP_eq_zero.2 fun s hs => by simp [hfreshSessions s hs]
    cases report'
    simp only [ReapReport.mk.injEq]
    exact ⟨haborted, hclosed, hpurged, hpurgedSessions⟩
  · have hkept : N.queries.rows = M.queries.rows := by
      rw [h'.queries, hqueries]
      exact List.filter_eq_self.2 fun q hq => by simp [hfresh q hq]
    have hkeptSessions : N.sessions.rows = M.sessions.rows := by
      rw [h'.sessions, hsessions]
      exact List.filter_eq_self.2 fun s hs => by simp [hfreshSessions s hs]
    have hcounters : N.counters = M.counters := by
      rw [h'.counters, haborted, hclosed]
      rfl
    rw [h'.rest, hkept, hkeptSessions, h'.untouched haborted, hcounters]

end Reaped
end Ledger
end VoucherGateway
