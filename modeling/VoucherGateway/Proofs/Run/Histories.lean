import Mathlib.Data.Nat.Count
import VoucherGateway.Proofs.Clients.Passes

/-!
# Histories — a gateway in one lasting world

A history is what happens to a gateway in its world: calls, time that passes, standings that change on the
chain.  It is listed newest first.  The calls of one client can be deleted from it; the numbers that the others
then get are those that they got, counted without the numbers of that client.
-/

namespace VoucherGateway

variable {S : Scheme}

/-! ## What happens -/

/-- Something that happens to a gateway in its world. -/
inductive Happening (S : Scheme)
  | called (call : Call S)
  | passed (millis : Nat)
  | stood (client : S.Party) (standing : ChainSnapshot)

namespace Happening

/-- The gateway after it. -/
def on : Happening S → Gateway S → Gateway S
  | .called call, g => (call.op.run g).2
  | .passed millis, g => g.setClock (g.now + millis)
  | .stood client standing, g =>
    { g with chain := { g.chain with source := g.chain.source.setStanding client standing } }

/-- Whether it is a call that is addressed to a client. -/
def isOf (client : S.Party) (g : Gateway S) : Happening S → Bool
  | .called call => decide (client ∈ g.ledger.addressees call)
  | _ => false

/-- The same, under other numbers. -/
def rename (ρ : Renaming) : Happening S → Happening S
  | .called call => .called (call.rename ρ)
  | other => other

end Happening

namespace Gateway

/-- The gateway after a history, newest first. -/
def history (start : Gateway S) : List (Happening S) → Gateway S
  | [] => start
  | h :: earlier => h.on (history start earlier)

/-- A history without the calls that were addressed to a client. -/
def without (start : Gateway S) (client : S.Party) : List (Happening S) → List (Happening S)
  | [] => []
  | h :: earlier =>
    if h.isOf client (start.history earlier) then without start client earlier
    else h :: without start client earlier

variable {start g : Gateway S} {owners : Owners S} {absent : S.Party}

/-- Whatever happens leaves a tidy ledger and takes no number back. -/
theorem orderly_on (h : g.holdings.Tidy owners) (happening : Happening S) :
    (∃ owners, (happening.on g).holdings.Tidy owners) ∧
      g.queries.next ≤ (happening.on g).queries.next ∧ g.sessions.next ≤ (happening.on g).sessions.next := by
  cases happening with
  | called call => exact orderly_call h call
  | passed millis => exact ⟨⟨owners, h⟩, Nat.le_refl _, Nat.le_refl _⟩
  | stood client standing => exact ⟨⟨owners, h⟩, Nat.le_refl _, Nat.le_refl _⟩

theorem tidy_history (h : start.holdings.Tidy owners) (run : List (Happening S)) :
    ∃ owners, (start.history run).holdings.Tidy owners := by
  induction run with
  | nil => exact ⟨owners, h⟩
  | cons happening earlier ih =>
    obtain ⟨owners, h⟩ := ih
    exact (orderly_on h happening).1

/-! ## Numbers given to others -/

/-- A counter that never goes back. -/
def Counts (start : Gateway S) (next : Gateway S → Nat) : Prop :=
  ∀ run happening, next (start.history run) ≤ next (start.history (happening :: run))

theorem counts_queries (h : start.holdings.Tidy owners) : start.Counts (·.queries.next) := fun run happening =>
  have ⟨_, hrun⟩ := tidy_history h run
  (orderly_on hrun happening).2.1

theorem counts_sessions (h : start.holdings.Tidy owners) : start.Counts (·.sessions.next) := fun run happening =>
  have ⟨_, hrun⟩ := tidy_history h run
  (orderly_on hrun happening).2.2

/-- Whether a number was given out, but not to a client. -/
def givenToOthers (start : Gateway S) (client : S.Party) (next : Gateway S → Nat) :
    List (Happening S) → Nat → Bool
  | [], _ => false
  | h :: earlier, n =>
    (!h.isOf client (start.history earlier) && decide (next (start.history earlier) ≤ n) &&
        decide (n < next (start.history (h :: earlier)))) ||
      givenToOthers start client next earlier n

namespace Counts

variable {next : Gateway S → Nat} {n : Nat}

theorem le_append (hnext : start.Counts next) (later earlier : List (Happening S)) :
    next (start.history earlier) ≤ next (start.history (later ++ earlier)) := by
  induction later with
  | nil => exact Nat.le_refl _
  | cons h later ih => exact Nat.le_trans ih (hnext _ h)

/-- Numbers that are given out are counted from the first one on. -/
theorem bounds (hnext : start.Counts next) {run : List (Happening S)}
    (hn : start.givenToOthers absent next run n = true) : next start ≤ n ∧ n < next (start.history run) := by
  induction run with
  | nil => cases hn
  | cons h earlier ih =>
    simp only [givenToOthers, Bool.or_eq_true, Bool.and_eq_true, decide_eq_true_eq] at hn
    rcases hn with ⟨⟨-, hle⟩, hlt⟩ | hn
    · have hstart := hnext.le_append earlier []
      rw [List.append_nil] at hstart
      exact ⟨Nat.le_trans hstart hle, hlt⟩
    · obtain ⟨hle, hlt⟩ := ih hn
      exact ⟨hle, Nat.lt_of_lt_of_le hlt (hnext earlier h)⟩

/-- Who got a number is known from when it was given out. -/
theorem givenToOthers_eq (hnext : start.Counts next) (absent : S.Party) (later : List (Happening S)) (h : Happening S)
    {earlier : List (Happening S)} (hle : next (start.history earlier) ≤ n)
    (hlt : n < next (start.history (h :: earlier))) :
    start.givenToOthers absent next (later ++ h :: earlier) n = !h.isOf absent (start.history earlier) := by
  induction later with
  | nil =>
    have hearlier : start.givenToOthers absent next earlier n = false := by
      by_contra hgiven
      exact absurd (hnext.bounds (by simpa using hgiven)).2 (Nat.not_lt.2 hle)
    simp [givenToOthers, hearlier, hle, hlt]
  | cons h' later ih =>
    -- later numbers are greater
    have hbefore : n < next (start.history (later ++ h :: earlier)) :=
      Nat.lt_of_lt_of_le hlt (hnext.le_append later (h :: earlier))
    have hno : ¬ next (start.history (later ++ h :: earlier)) ≤ n := Nat.not_le.2 hbefore
    simp [givenToOthers, hno, ih]

end Counts
end Gateway

/-! ## Counting them -/

theorem count_of_constant {p : Nat → Bool} {a b : Nat} (hab : a ≤ b) {c : Bool} (h : ∀ n, a ≤ n → n < b → p n = c) :
    Nat.count (fun n => p n = true) b = Nat.count (fun n => p n = true) a + if c then b - a else 0 := by
  obtain ⟨d, rfl⟩ := Nat.exists_eq_add_of_le hab
  rw [Nat.count_add, Nat.add_sub_cancel_left]
  congr 1
  cases c with
  | true => exact Nat.count_of_forall fun n hn => h (a + n) (by omega) (by omega)
  | false =>
    refine Nat.count_of_forall_not fun n hn => ?_
    simp [h (a + n) (by omega) (by omega)]

namespace Renaming

/-- Numbers that are chosen are counted from one; all others come after them. -/
def rank (chosen : Nat → Bool) (bound n : Nat) : Nat :=
  (if chosen n then Nat.count (fun m => chosen m = true) n else bound + n) + 1

theorem rank_injective {chosen : Nat → Bool} {bound : Nat} (h : ∀ n, chosen n = true → n < bound) :
    Function.Injective (rank chosen bound) := by
  have small : ∀ n, chosen n = true → Nat.count (fun m => chosen m = true) n < bound := fun n hn =>
    Nat.lt_of_le_of_lt (Nat.count_le _) (h n hn)
  -- chosen numbers stay below the bound, and the others go beyond it
  intro m n hmn
  have hmn : (if chosen m then Nat.count (fun m => chosen m = true) m else bound + m) =
      if chosen n then Nat.count (fun m => chosen m = true) n else bound + n := Nat.succ.inj hmn
  by_cases hm : chosen m = true <;> by_cases hn : chosen n = true
  · rw [if_pos hm, if_pos hn] at hmn
    exact Nat.count_injective hm hn hmn
  · rw [if_pos hm, if_neg hn] at hmn
    have := small m hm
    omega
  · rw [if_neg hm, if_pos hn] at hmn
    have := small n hn
    omega
  · rw [if_neg hm, if_neg hn] at hmn
    omega

/-- The numbers that others get if the numbers of one client are not given out. -/
def ranked (queries sessions : Nat → Bool) (q s : Nat) (hqueries : ∀ n, queries n = true → n < q)
    (hsessions : ∀ n, sessions n = true → n < s) : Renaming where
  query id := ⟨rank queries q id.number⟩
  session id := ⟨rank sessions s id.number⟩
  query_injective id id' h := by
    have hnumber := rank_injective hqueries (congrArg QueryId.number h)
    exact congrArg QueryId.mk hnumber
  session_injective id id' h := by
    have hnumber := rank_injective hsessions (congrArg SessionId.number h)
    exact congrArg SessionId.mk hnumber

end Renaming
end VoucherGateway
