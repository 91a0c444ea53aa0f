import VoucherGateway.Counters
import VoucherGateway.Proofs.Wire.RoundTrip

/-!
# Restarts — what counters remember

Counters live in memory and, if they are kept, in a file.  Between the events others may write or delete the file, or
make it unreachable for a while, and the counters may be opened anew at any time.  What the file holds is what was
written to it last, by whomever; opening brings back those counters and no others.  An event whose total runs over is
counted, but recording it panics before the file is written.

Main statement: `counters_survive`.
-/

namespace VoucherGateway

open MessagePack (Reads Value reads_array reads_number)

/-! ## The file and its reader -/

namespace Counters

theorem reads_encode (c : Counters) (depth : Nat) :
    Reads (MessagePack.read (depth + 1)) c.encode (.array (c.toList.map fun n => .unsigned n.toNat)) := by
  have hlength : c.toList.length < 2 ^ 32 := by
    rw [show c.toList.length = 9 from rfl]
    decide
  have hword : ∀ n ∈ c.toList, Reads (MessagePack.read depth) (MessagePack.encodeNat n.toNat) (.unsigned n.toNat) :=
    fun n _ => reads_number n.toNat_lt depth
  have hrow : c.encode =
      MessagePack.encodeArrayHeader c.toList.length ++ c.toList.flatMap fun n => MessagePack.encodeNat n.toNat := rfl
  rw [hrow]
  exact reads_array hlength hword

/-- Counters are read as they were written, whatever their values. -/
theorem decode?_encode (c : Counters) : decode? c.encode = some c := by
  have hread := reads_encode c 1022 []
  have hdecode : MessagePack.decode c.encode = some (.array (c.toList.map fun n => .unsigned n.toNat)) := by
    rw [List.append_nil] at hread
    unfold MessagePack.decode MessagePack.maxDepth
    rw [hread]
    rfl
  have hfields : Value.fields? names (.array (c.toList.map fun n => .unsigned n.toNat)) =
      some (c.toList.map fun n => .unsigned n.toNat) := rfl
  have hwords : (c.toList.map fun n => Value.unsigned n.toNat).mapM Value.word? = some c.toList := by
    simp only [toList, List.map_cons, List.map_nil, List.mapM_cons, List.mapM_nil, Value.word?_unsigned]
    rfl
  simp only [decode?, hdecode, Option.bind_eq_bind, Option.bind_some, hfields, hwords, ofList?_toList]

end Counters

/-! ## Histories -/

/-- What others do to the file. -/
inductive CounterFile.Change
  | written (bytes : Bytes)
  | deleted
  /-- From now on it can be read, and written, or not. -/
  | access (readable writable : Bool)
  deriving DecidableEq, Repr

/-- The file after what others did. -/
def CounterFile.change (f : CounterFile) : Change → CounterFile
  | .written bytes => { f with content := some bytes }
  | .deleted => { f with content := none }
  | .access readable writable => { f with readable := readable, writable := writable }

namespace Metrics

/-- What happens to counters. -/
inductive Happening
  | counted (e : Event)
  | flushed
  /-- They are opened anew, to be kept or not. -/
  | reopened (persistent : Bool)
  | changed (x : CounterFile.Change)
  deriving DecidableEq, Repr

namespace Happening

/-- Whether the counters are to be written to the file. -/
def writes : Happening → Bool
  | .counted .sessionAccepted | .counted (.querySettled _) | .flushed => true
  | _ => false

/-- Whether recording panics. -/
def panics (c : Counters) : Happening → Bool
  | .counted e => c.runsOver e
  | _ => false

/-- What others do, if it is others who do it. -/
def change? : Happening → Option CounterFile.Change
  | .changed x => some x
  | _ => none

/-- Whether others touch what the file holds. -/
def touches : Happening → Bool
  | .changed (.written _) | .changed .deleted => true
  | _ => false

/-- What is counted. -/
def count (c : Counters) : Happening → Counters
  | .counted e => c.count e
  | _ => c

theorem eq_of_change? {h : Happening} {x : CounterFile.Change} (hothers : h.change? = some x) : h = .changed x := by
  cases h with
  | changed y => exact congrArg changed (Option.some.inj hothers)
  | _ => cases hothers

end Happening

/-- Counters after something happened. -/
def suffer (m : Metrics) : Happening → Metrics
  | .counted e => m.count e
  | .flushed => m.flush
  | .reopened persistent => { m with persistent := persistent }.reopen
  | .changed x => { m with file := m.file.change x }

/-- Counters after a history, which is listed oldest first. -/
def after (m : Metrics) (history : List Happening) : Metrics := history.foldl suffer m

/-- Whether an attempt to write the file would succeed. -/
def canSave (m : Metrics) : Bool := m.persistent && m.file.writable

/-- Whether the counters get written to the file. -/
def saves (m : Metrics) (h : Happening) : Bool := m.canSave && h.writes && !h.panics m.counters

/-- Whether nobody writes or deletes the file in a history. -/
def spares : Metrics → List Happening → Bool
  | _, [] => true
  | m, h :: rest => !h.touches && !m.saves h && (m.suffer h).spares rest

/-! ## One thing after the other -/

section Steps

variable {m : Metrics} {h : Happening}

theorem after_append (m : Metrics) (history more : List Happening) :
    m.after (history ++ more) = (m.after history).after more := List.foldl_append

theorem after_concat (m : Metrics) (history : List Happening) (h : Happening) :
    m.after (history ++ [h]) = (m.after history).suffer h := after_append m history [h]

theorem flush_of_canSave (hsave : m.canSave = true) :
    m.flush = { m with file := { m.file with content := some m.counters.encode } } := by
  obtain ⟨hkept, hwritable⟩ := Bool.and_eq_true_iff.1 hsave
  simp only [flush, hkept, CounterFile.write, hwritable, if_true]

theorem flush_of_not_canSave (hsave : m.canSave = false) : m.flush = m := by
  unfold flush CounterFile.write
  cases hkept : m.persistent with
  | false => rfl
  | true =>
    have hwritable : m.file.writable = false := by simpa [canSave, hkept] using hsave
    cases m
    simp_all

theorem Happening.writes_counted (e : Event) : (counted e).writes = e.isKept := by cases e <;> rfl

/-- Counting comes first, and the file after it, if recording comes so far. -/
theorem suffer_counted (m : Metrics) (e : Event) :
    m.suffer (.counted e) =
      if (Happening.counted e).writes && !m.counters.runsOver e then { m with counters := m.counters.count e }.flush
      else { m with counters := m.counters.count e } := by
  change m.count e = _
  rw [count_eq, Happening.writes_counted]
  cases e.isKept <;> cases m.counters.runsOver e <;> rfl

/-- Recording that panics has counted, and has left the file alone. -/
theorem suffer_of_runsOver {e : Event} (hover : m.counters.runsOver e = true) :
    m.suffer (.counted e) = { m with counters := m.counters.count e } := by
  rw [suffer_counted, hover, Bool.not_true, Bool.and_false]
  rfl

theorem record_panics_iff (m : Metrics) (e : Event) :
    ((record e).run m).1 = .error .overflow ↔ m.counters.runsOver e = true := by
  rw [run_record]
  cases m.counters.runsOver e with
  | true => exact ⟨fun _ => rfl, fun _ => rfl⟩
  | false => exact ⟨nofun, nofun⟩

/-- Whatever writes the file writes what has been counted. -/
theorem suffer_of_writes (hwrites : h.writes = true) (hreturns : h.panics m.counters = false) :
    m.suffer h = { m with counters := h.count m.counters }.flush := by
  cases h with
  | flushed => rfl
  | counted e =>
    have hfits : m.counters.runsOver e = false := hreturns
    rw [suffer_counted, hwrites, hfits]
    rfl
  | reopened persistent => cases hwrites
  | changed x => cases hwrites

theorem suffer_of_saves (hsaves : m.saves h = true) :
    m.suffer h =
      { m with
        counters := h.count m.counters
        file := { m.file with content := some (h.count m.counters).encode } } := by
  simp only [saves, Bool.and_eq_true, Bool.not_eq_true'] at hsaves
  obtain ⟨⟨hsave, hwrites⟩, hreturns⟩ := hsaves
  rw [suffer_of_writes hwrites hreturns]
  -- whether it can be written does not depend on the values
  exact flush_of_canSave (m := { m with counters := h.count m.counters }) hsave

/-- What does not get written leaves the file alone. -/
theorem file_suffer_of_not_saves (hsaves : m.saves h = false) (hothers : h.change? = none) :
    (m.suffer h).file = m.file := by
  cases hwrites : h.writes && !h.panics m.counters with
  | true =>
    obtain ⟨hkept, hreturns⟩ := Bool.and_eq_true_iff.1 hwrites
    rw [Bool.not_eq_true'] at hreturns
    have hsave : m.canSave = false := by simpa [saves, hkept, hreturns] using hsaves
    rw [suffer_of_writes hkept hreturns,
      flush_of_not_canSave (m := { m with counters := h.count m.counters }) hsave]
  | false =>
    cases h with
    | flushed => cases hwrites
    | counted e =>
      have hleft : ((Happening.counted e).writes && !m.counters.runsOver e) = false := hwrites
      rw [suffer_counted, hleft]
      rfl
    | reopened persistent => rfl
    | changed x => cases hothers

/-- Memory does not depend on the file until it is opened anew. -/
theorem counters_suffer (m : Metrics) (hopen : ∀ persistent, h ≠ .reopened persistent) :
    (m.suffer h).counters = h.count m.counters := by
  cases h with
  | flushed => exact counters_flush m
  | counted e => exact counters_count m e
  | reopened persistent => exact absurd rfl (hopen persistent)
  | changed x => rfl

/-- Counters that are not kept are kept only once they are opened so. -/
theorem transient_suffer (hkept : m.persistent = false) (hopen : h ≠ .reopened true) :
    (m.suffer h).persistent = false := by
  cases h with
  | flushed => exact (persistent_flush m).trans hkept
  | counted e => exact (persistent_count m e).trans hkept
  | reopened persistent =>
    cases persistent with
    | false => rfl
    | true => exact absurd rfl hopen
  | changed x => exact hkept

/-- What the file holds stays what it is while nobody writes or deletes it. -/
theorem content_suffer (htouches : h.touches = false) (hsaves : m.saves h = false) :
    (m.suffer h).file.content = m.file.content := by
  cases hothers : h.change? with
  | none => rw [file_suffer_of_not_saves hsaves hothers]
  | some x =>
    obtain rfl : h = .changed x := Happening.eq_of_change? hothers
    cases x with
    | access readable writable => rfl
    | written bytes => cases htouches
    | deleted => cases htouches

theorem content_after {history : List Happening} (hspares : m.spares history = true) :
    (m.after history).file.content = m.file.content := by
  induction history generalizing m with
  | nil => rfl
  | cons h rest ih =>
    simp only [spares, Bool.and_eq_true, Bool.not_eq_true'] at hspares
    obtain ⟨⟨htouches, hsaves⟩, hrest⟩ := hspares
    calc
      (m.after (h :: rest)).file.content = (m.suffer h).file.content := ih hrest
      _ = m.file.content := content_suffer htouches hsaves

/-- Counters that are not kept leave the file to others. -/
theorem file_after_of_transient {history : List Happening} (hkept : m.persistent = false)
    (hopen : ∀ h ∈ history, h ≠ .reopened true) :
    (m.after history).file = (history.filterMap Happening.change?).foldl CounterFile.change m.file := by
  induction history generalizing m with
  | nil => rfl
  | cons h rest ih =>
    have hsaves : m.saves h = false := by simp [saves, canSave, hkept]
    have hstays : (m.suffer h).persistent = false := transient_suffer hkept (hopen h List.mem_cons_self)
    refine (ih hstays fun h hh => hopen h (List.mem_cons_of_mem _ hh)).trans ?_
    cases hothers : h.change? with
    | none => rw [List.filterMap_cons_none hothers, file_suffer_of_not_saves hsaves hothers]
    | some x =>
      obtain rfl : h = .changed x := Happening.eq_of_change? hothers
      rw [List.filterMap_cons_some hothers]
      rfl

end Steps

/-! ## Opening anew -/

/-- What opening the counters brings back, if they are to be kept. -/
structure Restores (m : Metrics) : Prop where
  /-- Whatever nine values a file holds, these are the counters. -/
  restored : ∀ c : Counters, m.file.content = some c.encode → m.file.readable = true →
    (m.suffer (.reopened true)).counters = c
  /-- Without a file that can be read and decoded they begin at zero. -/
  zeroed : m.file.content = none ∨ m.file.readable = false ∨
      (∃ bytes, m.file.content = some bytes ∧ Counters.decode? bytes = none) →
    (m.suffer (.reopened true)).counters = {}
  /-- The file is only looked at. -/
  looked : (m.suffer (.reopened true)).file = m.file

theorem restores (m : Metrics) : m.Restores where
  restored c hcontent hreadable := by
    simp only [suffer, reopen, CounterFile.bytes?, hreadable, if_true, hcontent, Option.bind_some,
      Counters.decode?_encode, Option.getD_some]
  zeroed hnone := by
    obtain hmissing | hunreadable | ⟨bytes, hcontent, hdecode⟩ := hnone
    · simp only [suffer, reopen, CounterFile.bytes?, hmissing, ite_self, Option.bind_none, Option.getD_none]
    · simp [suffer, reopen, CounterFile.bytes?, hunreadable]
    · cases hreadable : m.file.readable <;> simp [suffer, reopen, CounterFile.bytes?, hreadable, hcontent, hdecode]
  looked := rfl

/-- Whatever happens to counters and their file: once they get written, opening them anew restores them as they were
then, as long as nobody wrote or deleted the file since and it can be read; a file that is missing, or cannot be read or
decoded, restores zeros.  Memory counts what happens whether or not it can be written, a write that fails leaves the
file as it is, and counters that are not kept never write one.  Recording panics just when a total runs over, and then
all it has done is to count. -/
theorem counters_survive (start : Metrics) :
    (∀ (earlier later : List Happening) (h : Happening),
      (start.after earlier).saves h = true → (start.after (earlier ++ [h])).spares later = true →
      (start.after (earlier ++ h :: later)).file.readable = true →
      (start.after (earlier ++ h :: later ++ [.reopened true])).counters =
        (start.after (earlier ++ [h])).counters) ∧
    (∀ history, (start.after history).Restores) ∧
    (∀ history h, (∀ persistent, h ≠ .reopened persistent) →
      (start.after (history ++ [h])).counters = h.count (start.after history).counters) ∧
    (∀ history h, (start.after history).saves h = false → h.change? = none →
      (start.after (history ++ [h])).file = (start.after history).file) ∧
    (∀ history, start.persistent = false → (∀ h ∈ history, h ≠ .reopened true) →
      (start.after history).file = (history.filterMap Happening.change?).foldl CounterFile.change start.file) ∧
    ∀ history e, let m := start.after history
      (((record e).run m).1 = .error .overflow ↔ m.counters.runsOver e = true) ∧
        (m.counters.runsOver e = true →
          start.after (history ++ [.counted e]) = { m with counters := m.counters.count e }) := by
  refine ⟨fun earlier later h hsaves hspares hreadable => ?_, fun history => restores _, fun history h hopen => ?_,
    fun history h hsaves hothers => ?_, fun history hkept hopen => file_after_of_transient hkept hopen,
    fun history e => ⟨record_panics_iff _ e, fun hover => ?_⟩⟩
  · have hsplit : start.after (earlier ++ h :: later) = (start.after (earlier ++ [h])).after later := by
      rw [← after_append, List.append_assoc, List.singleton_append]
    have hsaved : (start.after (earlier ++ [h])).file.content =
        some (start.after (earlier ++ [h])).counters.encode := by
      rw [after_concat, suffer_of_saves hsaves]
    have hheld : (start.after (earlier ++ h :: later)).file.content =
        some (start.after (earlier ++ [h])).counters.encode := by
      rw [hsplit, content_after hspares, hsaved]
    rw [after_concat]
    exact (restores _).restored _ hheld hreadable
  · rw [after_concat, counters_suffer _ hopen]
  · rw [after_concat, file_suffer_of_not_saves hsaves hothers]
  · rw [after_concat, suffer_of_runsOver hover]

/-- A settled query is written.  The next one makes the total run over: it is counted in memory, and recording panics
before the file is written.  The file is then out of reach for a session and a flush, which are forgotten like that
query, and once it is deleted all is. -/
theorem counters_survive_sample :
    let start : Metrics :=
      { counters := { queriesLocked := 7, atomsSettled := 0xFFFFFFFFFFFFFFF0 }, persistent := true }
    let settled : Happening := .counted (.querySettled 5)
    let later : List Happening := [.counted (.querySettled 15), .changed (.access false false),
      .counted .sessionAccepted, .changed (.access true false), .flushed]
    let lived := start.after (settled :: later)
    let transient : Metrics := { file := { content := some [0x90] } }
    start.saves settled = true ∧ (start.after [settled]).spares later = true ∧ lived.file.readable = true ∧
      ((record (.querySettled 15)).run (start.after [settled])).1 = .error .overflow ∧
      lived.counters.sessionsAccepted = 1 ∧ lived.counters.atomsSettled = 4 ∧
      (lived.suffer (.reopened true)).counters =
        { queriesLocked := 7, queriesSettled := 1, atomsSettled := 0xFFFFFFFFFFFFFFF5 } ∧
      (start.after (settled :: later ++ [.flushed])).file = lived.file ∧
      (start.after (settled :: later ++ [.flushed])).counters = lived.counters ∧
      ((start.after (settled :: later ++ [.changed .deleted])).suffer (.reopened true)).counters = {} ∧
      (transient.after [.flushed, .counted .sessionAccepted, .reopened false]).file = transient.file := by
  intro start settled later lived transient
  have hsaves : start.saves settled = true := by decide
  have hspares : (start.after [settled]).spares later = true := by decide
  have hreadable : lived.file.readable = true := by decide
  obtain ⟨hsurvive, hrestores, hcounts, hfails, -, hpanics⟩ := counters_survive start
  obtain ⟨-, -, -, -, hnever, -⟩ := counters_survive transient
  have hrestored : (start.after (settled :: later ++ [.reopened true])).counters = (start.after [settled]).counters :=
    hsurvive [] later settled hsaves hspares hreadable
  refine ⟨hsaves, hspares, hreadable, (hpanics [settled] _).1.2 (by decide), by decide, by decide, ?_, hfails (settled :: later) .flushed (by decide) rfl,
    hcounts (settled :: later) .flushed nofun, ?_, hnever _ rfl (by decide)⟩
  · rw [after_concat] at hrestored
    exact hrestored.trans (by decide)
  · have hgone : (start.after (settled :: later ++ [.changed .deleted])).file.content = none := by rw [after_concat]; rfl
    exact (hrestores _).zeroed (.inl hgone)

end Metrics
end VoucherGateway
