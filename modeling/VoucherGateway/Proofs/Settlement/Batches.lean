import VoucherGateway.Proofs.Ledger.Sound

/-!
# Batches — the settlement queue loses, repeats and reorders nothing

A queue is called for any clients in any order.  Its history lists the calls with their answers, the oldest
first; from it follow the vouchers that were queued for a client, and the batch that is under way with what was
queued since it began.

The nonces that are queued for a client increase, which is why a batch is found again by its newest nonce alone.
Main statement: `nothing_lost`.
-/

namespace VoucherGateway

variable {S : Scheme}

/-- A call of the settlement queue. -/
inductive QueueCall (S : Scheme)
  | push (v : Voucher S)
  | begin (client : S.Party)
  | complete (client : S.Party) (reference : String)
  | fail (client : S.Party)

/-- What the settlement queue answers. -/
inductive QueueAnswer (S : Scheme)
  | pushed (queued : Bool)
  | begun (batch : Option (SettlementBatch S))
  | completed (count : Option Nat)
  | failed (wasBegun : Bool)

/-- The client whom a call is about. -/
def QueueCall.client : QueueCall S → S.Party
  | .push v => v.client
  | .begin client | .complete client _ | .fail client => client

/-- A call and its answer. -/
abbrev Exchange (S : Scheme) := QueueCall S × QueueAnswer S

/-! ## What a history says about a client -/

/-- The calls for a client with their answers. -/
def about (client : S.Party) (history : List (Exchange S)) : List (Exchange S) :=
  history.filter fun x => x.1.client = client

/-- The voucher that was pushed, queued or not. -/
def Exchange.offered? : Exchange S → Option (Voucher S)
  | (.push v, _) => some v
  | _ => none

/-- The voucher that was queued. -/
def Exchange.queued? : Exchange S → Option (Voucher S)
  | (.push v, .pushed true) => some v
  | _ => none

/-- The vouchers of a batch, and those queued since it began. -/
structure Journey (S : Scheme) where
  batch : List (Voucher S)
  meanwhile : List (Voucher S)

/-- The batch that is under way after a call for its client. -/
def Exchange.follow (j : Option (Journey S)) : Exchange S → Option (Journey S)
  | (.push v, .pushed true) => j.map fun j => { j with meanwhile := j.meanwhile ++ [v] }
  | (.begin _, .begun (some batch)) => some ⟨batch.vouchers, []⟩
  | (.complete _ _, .completed (some _)) | (.fail _, .failed true) => none
  | _ => j

/-- The vouchers pushed in the calls for a client. -/
def offered (mine : List (Exchange S)) : List (Voucher S) := mine.filterMap Exchange.offered?

/-- The vouchers queued in the calls for a client, in the order in which they were pushed. -/
def queued (mine : List (Exchange S)) : List (Voucher S) := mine.filterMap Exchange.queued?

/-- The batch that is under way after the calls for a client. -/
def underWay (mine : List (Exchange S)) : Option (Journey S) := mine.foldl Exchange.follow none

namespace Settlement

/-- What a call answers, and the queue after it. -/
def call (q : Settlement S) : QueueCall S → QueueAnswer S × Settlement S
  | .push v => (.pushed (q.push v).1, (q.push v).2)
  | .begin client => (.begun (q.begin client).1, (q.begin client).2)
  | .complete client reference => (.completed (q.complete client reference).1, (q.complete client reference).2)
  | .fail client => (.failed (q.fail client).1, (q.fail client).2)

/-- The history of a queue that was empty, and the queue at the end of it.  Its calls are listed newest first. -/
def run : List (QueueCall S) → List (Exchange S) × Settlement S
  | [] => ([], {})
  | c :: earlier => ((run earlier).1 ++ [(c, ((run earlier).2.call c).1)], ((run earlier).2.call c).2)

/-- What holds of a queue with a history, and of each call that may come next. -/
structure Faithful (history : List (Exchange S)) (q : Settlement S) : Prop where
  /-- What is settled and what is not make up what was queued, in its order. -/
  kept : ∀ c, (q.of c).settled.map (·.1) ++ (q.of c).unsettled = queued (about c history)
  increasing : ∀ c, (queued (about c history)).Pairwise (·.nonce < ·.nonce)
  /-- A voucher is queued exactly if it is newer than every one pushed for the client before. -/
  push_iff : ∀ v, (q.push v).1 = true ↔ ∀ w ∈ offered (about v.client history), w.nonce < v.nonce
  push_lists : ∀ v, ((q.push v).2.of v.client).settled = (q.of v.client).settled ∧
    ((q.push v).2.of v.client).unsettled = (q.of v.client).unsettled ++ if (q.push v).1 then [v] else []
  /-- A batch begins exactly if none is under way and something is unsettled. -/
  begin_iff : ∀ c, (q.begin c).1.isSome ↔ underWay (about c history) = none ∧ (q.of c).unsettled ≠ []
  /-- It takes all that is unsettled. -/
  begin_batch : ∀ c b, (q.begin c).1 = some b → b.vouchers = (q.of c).unsettled ∧
    b.total.toNat = min ((q.of c).unsettled.map (·.atoms.toNat)).sum 0xFFFFFFFFFFFFFFFF
  begin_lists : ∀ c, ((q.begin c).2.of c).settled = (q.of c).settled ∧
    ((q.begin c).2.of c).unsettled = (q.of c).unsettled
  /-- Without a batch nothing is completed. -/
  complete_idle : ∀ c reference, underWay (about c history) = none → q.complete c reference = (none, q)
  /-- Completing moves the batch under way, and leaves what was queued meanwhile. -/
  complete_batch : ∀ c reference j, underWay (about c history) = some j →
    (q.complete c reference).1 = some j.batch.length ∧
      ((q.complete c reference).2.of c).settled = (q.of c).settled ++ j.batch.map (·, reference) ∧
      ((q.complete c reference).2.of c).unsettled = j.meanwhile
  /-- Giving a batch up moves nothing. -/
  fail_lists : ∀ c, (q.fail c).1 = (underWay (about c history)).isSome ∧
    ((q.fail c).2.of c).settled = (q.of c).settled ∧ ((q.fail c).2.of c).unsettled = (q.of c).unsettled
  /-- What is settled stays where it is. -/
  grows : ∀ call c, (q.of c).settled <+: ((q.call call).2.of c).settled
  /-- Calls for other clients change nothing. -/
  apart : ∀ call c, c ≠ call.client → (q.call call).2.of c = q.of c

end Settlement

/-! ## One client -/

namespace ClientSettlement

variable {mine : List (Exchange S)} {c : ClientSettlement S}

/-- The lists of a client are what the calls for the client say. -/
structure Kept (mine : List (Exchange S)) (c : ClientSettlement S) : Prop where
  handed : c.handed = queued mine
  increasing : c.handed.Pairwise (·.nonce < ·.nonce)
  /-- What was not queued was not newer. -/
  offered : ∀ w ∈ offered mine, ∃ v ∈ c.handed, w.nonce ≤ v.nonce
  resting : underWay mine = none → c.inFlight = none
  /-- The batch under way is in front of what was queued since, and ends with the nonce that is remembered. -/
  travelling : ∀ j, underWay mine = some j → c.unsettled = j.batch ++ j.meanwhile ∧
    ∃ newest, j.batch.getLast? = some newest ∧ c.inFlight = some newest.nonce

/-- With increasing nonces, the last voucher decides what is newer than all. -/
theorem newer_iff {vs : List (Voucher S)} (h : vs.Pairwise (·.nonce < ·.nonce)) {n : UInt64} :
    (∀ w ∈ vs, w.nonce < n) ↔ (vs.getLast?.map (·.nonce)).any (n ≤ ·) = false := by
  rcases List.eq_nil_or_concat vs with rfl | ⟨front, last, rfl⟩
  · simp
  · simp only [List.concat_eq_append, List.getLast?_concat, Option.map_some, Option.any_some,
      decide_eq_false_iff_not, UInt64.not_le]
    constructor
    · intro hall
      exact hall last (List.mem_append_right _ (List.mem_singleton_self _))
    · intro hlast w hw
      rcases List.mem_append.mp hw with hw | hw
      · exact UInt64.lt_trans ((List.pairwise_append.mp (by simpa using h)).2.2 w hw last (by simp)) hlast
      · rwa [List.mem_singleton.mp hw]

theorem push_eq (h : c.handed.Pairwise (·.nonce < ·.nonce)) (v : Voucher S) :
    ((c.push v).1 = true ↔ ∀ w ∈ c.handed, w.nonce < v.nonce) ∧
      (c.push v).2 = { c with unsettled := c.unsettled ++ if (c.push v).1 then [v] else [] } := by
  rw [newer_iff h, ← newest?_eq]
  unfold push
  cases c.newest?.any (v.nonce ≤ ·) <;> simp

/-- A batch that ends with a nonce is found again by it. -/
theorem span_batch {batch meanwhile : List (Voucher S)} {newest : Voucher S}
    (h : (batch ++ meanwhile).Pairwise (·.nonce < ·.nonce)) (hlast : batch.getLast? = some newest) :
    (batch ++ meanwhile).takeWhile (·.nonce ≤ newest.nonce) = batch ∧
      (batch ++ meanwhile).dropWhile (·.nonce ≤ newest.nonce) = meanwhile := by
  obtain ⟨hbatch, -, hacross⟩ := List.pairwise_append.mp h
  have hin : ∀ v ∈ batch, decide (v.nonce ≤ newest.nonce) = true := by
    intro v hv
    obtain ⟨front, rfl⟩ := List.getLast?_eq_some_iff.mp hlast
    rw [decide_eq_true_iff]
    rcases List.mem_append.mp hv with hv | hv
    · exact UInt64.le_of_lt ((List.pairwise_append.mp hbatch).2.2 v hv newest (List.mem_singleton_self _))
    · exact List.mem_singleton.mp hv ▸ UInt64.le_refl _
  have hout : ∀ v ∈ meanwhile.head?, decide (v.nonce ≤ newest.nonce) = false := by
    intro v hv
    rw [decide_eq_false_iff_not, UInt64.not_le]
    exact hacross newest (List.mem_of_getLast? hlast) v (List.mem_of_head? hv)
  rw [List.takeWhile_append_of_pos hin, List.dropWhile_append_of_pos hin]
  cases meanwhile with
  | nil => simp
  | cons v rest => simp [hout v rfl]

/-! ## One call for the client -/

theorem offered_concat (mine : List (Exchange S)) (x : Exchange S) :
    VoucherGateway.offered (mine ++ [x]) = VoucherGateway.offered mine ++ x.offered?.toList := by
  unfold VoucherGateway.offered
  rw [List.filterMap_append]
  cases h : x.offered? <;> simp [h]

theorem queued_concat (mine : List (Exchange S)) (x : Exchange S) :
    queued (mine ++ [x]) = queued mine ++ x.queued?.toList := by
  unfold queued
  rw [List.filterMap_append]
  cases h : x.queued? <;> simp [h]

theorem mem_offered_of_queued {v : Voucher S} (h : v ∈ queued mine) : v ∈ VoucherGateway.offered mine := by
  obtain ⟨x, hx, hv⟩ := List.mem_filterMap.mp h
  refine List.mem_filterMap.mpr ⟨x, hx, ?_⟩
  unfold Exchange.queued? at hv
  split at hv
  · exact hv
  · cases hv

theorem underWay_concat (mine : List (Exchange S)) (x : Exchange S) :
    underWay (mine ++ [x]) = x.follow (underWay mine) := by
  simp [underWay]

theorem kept_empty : Kept [] ({} : ClientSettlement S) where
  handed := rfl
  increasing := .nil
  offered := fun _ h => by cases h
  resting := fun _ => rfl
  travelling := fun _ h => by cases h

theorem Kept.push (h : c.Kept mine) (v : Voucher S) :
    (c.push v).2.Kept (mine ++ [(.push v, .pushed (c.push v).1)]) := by
  obtain ⟨hiff, hstate⟩ := push_eq h.increasing v
  have hhanded : (c.push v).2.handed = c.handed ++ if (c.push v).1 then [v] else [] := by
    rw [hstate]
    simp [ClientSettlement.handed]
  have hqueued : (c.push v).2.handed = queued (mine ++ [(.push v, .pushed (c.push v).1)]) := by
    rw [hhanded, h.handed, queued_concat]
    cases (c.push v).1 <;> rfl
  have hfollow : underWay (mine ++ [(.push v, .pushed (c.push v).1)]) =
      (underWay mine).map fun j => ⟨j.batch, j.meanwhile ++ if (c.push v).1 then [v] else []⟩ := by
    rw [underWay_concat]
    cases (c.push v).1 <;> cases underWay mine <;> simp [Exchange.follow]
  refine ⟨hqueued, ?increasing, ?offered, ?resting, ?travelling⟩
  case increasing =>
    rw [hhanded, List.pairwise_append]
    refine ⟨h.increasing, by split <;> simp, fun w hw x hx => ?_⟩
    split at hx
    · next hpushed => exact List.mem_singleton.mp hx ▸ hiff.mp hpushed w hw
    · cases hx
  case offered =>
    intro w hw
    rw [hhanded]
    rw [offered_concat] at hw
    rcases List.mem_append.mp hw with hw | hw
    · obtain ⟨x, hx, hle⟩ := h.offered w hw
      exact ⟨x, List.mem_append_left _ hx, hle⟩
    · obtain rfl : w = v := by simpa [Exchange.offered?] using hw
      cases hpushed : (c.push w).1 with
      | true => exact ⟨w, by simp, UInt64.le_refl _⟩
      | false =>
        -- something handed over is as new
        have hnot := mt hiff.mpr (by simp [hpushed])
        push Not at hnot
        obtain ⟨x, hx, hle⟩ := hnot
        exact ⟨x, List.mem_append_left _ hx, UInt64.not_lt.mp hle⟩
  case resting =>
    rw [hfollow, hstate]
    intro hnone
    exact h.resting (Option.map_eq_none_iff.mp hnone)
  case travelling =>
    rw [hfollow, hstate]
    intro j hj
    obtain ⟨i, hi, rfl⟩ := Option.map_eq_some_iff.mp hj
    obtain ⟨hsplit, hlast⟩ := h.travelling i hi
    exact ⟨by simp [hsplit], hlast⟩

/-- A call that queues nothing and moves nothing out of the two lists. -/
theorem Kept.of_handed (h : c.Kept mine) {x : Exchange S} {d : ClientSettlement S}
    (hoffered : x.offered? = none) (hqueued : x.queued? = none) (hhanded : d.handed = c.handed)
    (resting : underWay (mine ++ [x]) = none → d.inFlight = none)
    (travelling : ∀ j, underWay (mine ++ [x]) = some j → d.unsettled = j.batch ++ j.meanwhile ∧
      ∃ newest, j.batch.getLast? = some newest ∧ d.inFlight = some newest.nonce) : d.Kept (mine ++ [x]) where
  handed := by rw [hhanded, h.handed, queued_concat, hqueued]; simp
  increasing := hhanded ▸ h.increasing
  offered := by
    rw [offered_concat, hoffered, hhanded]
    simpa using h.offered
  resting := resting
  travelling := travelling

/-- A batch begins if none is under way and something is unsettled. -/
theorem Kept.begin_iff (h : c.Kept mine) : c.begin?.isSome ↔ underWay mine = none ∧ c.unsettled ≠ [] := by
  cases hj : underWay mine with
  | some j =>
    obtain ⟨-, newest, -, hflight⟩ := h.travelling j hj
    simp [begin?, hflight]
  | none =>
    have hflight := h.resting hj
    cases hu : c.unsettled.getLast? with
    | none => simp [begin?, hflight, List.getLast?_eq_none_iff.mp hu]
    | some newest =>
      have hne : c.unsettled ≠ [] := by
        intro he
        simp [he] at hu
      simp [begin?, hflight, hu, hne]

/-- What a batch takes. -/
theorem begin_eq_some {b : SettlementBatch S} {d : ClientSettlement S} (h : c.begin? = some (b, d)) :
    ∃ newest, c.unsettled.getLast? = some newest ∧ b.vouchers = c.unsettled ∧
      b.total = Atoms.total (c.unsettled.map (·.atoms)) ∧ d = { c with inFlight := some newest.nonce } := by
  unfold begin? at h
  split at h
  · next newest hflight hlast =>
    cases h
    exact ⟨newest, hlast, rfl, rfl, rfl⟩
  · cases h

theorem Kept.begin (h : c.Kept mine) (client : S.Party) {b : SettlementBatch S} {d : ClientSettlement S}
    (hbegin : c.begin? = some (b, d)) : d.Kept (mine ++ [(.begin client, .begun (some b))]) := by
  obtain ⟨newest, hlast, hvouchers, -, rfl⟩ := begin_eq_some hbegin
  refine h.of_handed rfl rfl rfl ?_ ?_
  · rw [underWay_concat]
    exact nofun
  · intro j hj
    rw [underWay_concat] at hj
    obtain rfl := Option.some.inj hj
    exact ⟨by simp [hvouchers], newest, hvouchers ▸ hlast, rfl⟩

/-- Without a batch nothing is completed; a batch is moved as a whole, and what was queued meanwhile stays. -/
theorem Kept.complete_eq (h : c.Kept mine) (reference : String) :
    c.complete? reference =
      (underWay mine).map fun j =>
        (j.batch.length,
          { unsettled := j.meanwhile
            settled := c.settled ++ j.batch.map (·, reference)
            inFlight := none }) := by
  unfold complete?
  cases hj : underWay mine with
  | none => rw [h.resting hj]; rfl
  | some j =>
    obtain ⟨hsplit, newest, hlast, hflight⟩ := h.travelling j hj
    have hincreasing : (j.batch ++ j.meanwhile).Pairwise (·.nonce < ·.nonce) := by
      rw [← hsplit]
      exact (List.pairwise_append.mp h.increasing).2.1
    obtain ⟨hdone, hleft⟩ := span_batch hincreasing hlast
    rw [hflight, Option.map_some, Option.map_some, hsplit, hdone, hleft]

theorem Kept.complete (h : c.Kept mine) (client : S.Party) {reference : String} {n : Nat}
    {d : ClientSettlement S} (hcomplete : c.complete? reference = some (n, d)) :
    d.Kept (mine ++ [(.complete client reference, .completed (some n))]) := by
  rw [h.complete_eq] at hcomplete
  obtain ⟨j, hj, hd⟩ := Option.map_eq_some_iff.mp hcomplete
  obtain ⟨-, rfl⟩ := Prod.mk.inj hd
  refine h.of_handed rfl rfl ?_ (fun _ => rfl) ?_
  · have hsplit := (h.travelling j hj).1
    simp [ClientSettlement.handed, hsplit, Function.comp_def]
  · rw [underWay_concat]
    exact nofun

theorem Kept.fail_eq (h : c.Kept mine) : c.fail = ((underWay mine).isSome, { c with inFlight := none }) := by
  unfold ClientSettlement.fail
  cases hj : underWay mine with
  | none => rw [h.resting hj]; rfl
  | some j =>
    obtain ⟨-, newest, -, hflight⟩ := h.travelling j hj
    rw [hflight]
    rfl

theorem Kept.fail (h : c.Kept mine) (client : S.Party) :
    c.fail.2.Kept (mine ++ [(.fail client, .failed c.fail.1)]) := by
  have hnone : underWay (mine ++ [(.fail client, .failed c.fail.1)]) = none := by
    rw [underWay_concat, h.fail_eq]
    cases underWay mine <;> rfl
  refine h.of_handed rfl rfl rfl (fun _ => rfl) ?_
  rw [hnone]
  exact nofun

/-- A call that is refused changes nothing. -/
theorem Kept.refused (h : c.Kept mine) {x : Exchange S} (hoffered : x.offered? = none) (hqueued : x.queued? = none)
    (hfollow : ∀ j, x.follow j = j) : c.Kept (mine ++ [x]) := by
  refine h.of_handed hoffered hqueued rfl ?_ ?_
  · rw [underWay_concat, hfollow]
    exact h.resting
  · rw [underWay_concat, hfollow]
    exact h.travelling

end ClientSettlement

/-! ## All clients -/

namespace Settlement

variable {q : Settlement S}

/-- Calls change the lists of their client only. -/
theorem of_call (q : Settlement S) (call : QueueCall S) {c : S.Party} (hne : c ≠ call.client) :
    (q.call call).2.of c = q.of c := by
  cases call with
  | push v => exact (of_put ..).trans (if_neg hne)
  | begin client =>
    simp only [Settlement.call, begin]
    split
    · exact (of_put ..).trans (if_neg hne)
    · rfl
  | complete client reference =>
    simp only [Settlement.call, complete]
    split
    · exact (of_put ..).trans (if_neg hne)
    · rfl
  | fail client => exact (of_put ..).trans (if_neg hne)

theorem of_push (q : Settlement S) (v : Voucher S) :
    (q.push v).1 = ((q.of v.client).push v).1 ∧ (q.push v).2.of v.client = ((q.of v.client).push v).2 :=
  ⟨rfl, (of_put ..).trans (if_pos rfl)⟩

theorem of_begin (q : Settlement S) (client : S.Party) :
    (q.begin client).1 = (q.of client).begin?.map (·.1) ∧
      (q.begin client).2.of client = ((q.of client).begin?.map (·.2)).getD (q.of client) := by
  unfold begin
  cases h : (q.of client).begin? with
  | none => exact ⟨rfl, rfl⟩
  | some _ => exact ⟨rfl, (of_put ..).trans (if_pos rfl)⟩

theorem of_complete (q : Settlement S) (client : S.Party) (reference : String) :
    (q.complete client reference).1 = ((q.of client).complete? reference).map (·.1) ∧
      (q.complete client reference).2.of client =
        (((q.of client).complete? reference).map (·.2)).getD (q.of client) := by
  unfold complete
  cases h : (q.of client).complete? reference with
  | none => exact ⟨rfl, rfl⟩
  | some _ => exact ⟨rfl, (of_put ..).trans (if_pos rfl)⟩

theorem of_fail (q : Settlement S) (client : S.Party) :
    (q.fail client).1 = (q.of client).fail.1 ∧ (q.fail client).2.of client = (q.of client).fail.2 :=
  ⟨rfl, (of_put ..).trans (if_pos rfl)⟩

/-- A call keeps what the calls for its client say. -/
theorem kept_call {mine : List (Exchange S)} (q : Settlement S) (call : QueueCall S)
    (h : (q.of call.client).Kept mine) :
    ((q.call call).2.of call.client).Kept (mine ++ [(call, (q.call call).1)]) := by
  cases call with
  | push v =>
    obtain ⟨hanswer, hlists⟩ := of_push q v
    simp only [Settlement.call, QueueCall.client, hanswer, hlists]
    exact h.push v
  | begin client =>
    obtain ⟨hanswer, hlists⟩ := of_begin q client
    simp only [Settlement.call, QueueCall.client, hanswer, hlists]
    cases hb : (q.of client).begin? with
    | none => exact h.refused rfl rfl fun _ => rfl
    | some r => exact h.begin client hb
  | complete client reference =>
    obtain ⟨hanswer, hlists⟩ := of_complete q client reference
    simp only [Settlement.call, QueueCall.client, hanswer, hlists]
    cases hc : (q.of client).complete? reference with
    | none => exact h.refused rfl rfl fun _ => rfl
    | some r => exact h.complete client hc
  | fail client =>
    obtain ⟨hanswer, hlists⟩ := of_fail q client
    simp only [Settlement.call, QueueCall.client, hanswer, hlists]
    exact h.fail client

theorem about_concat (client : S.Party) (history : List (Exchange S)) (x : Exchange S) :
    about client (history ++ [x]) = about client history ++ if x.1.client = client then [x] else [] := by
  unfold about
  rw [List.filter_append]
  by_cases h : x.1.client = client <;> simp [h]

/-- The history of a queue says what the lists of every client are. -/
theorem kept_run (calls : List (QueueCall S)) (c : S.Party) :
    ((run calls).2.of c).Kept (about c (run calls).1) := by
  induction calls generalizing c with
  | nil => exact ClientSettlement.kept_empty
  | cons call earlier ih =>
    simp only [run, about_concat]
    by_cases hc : call.client = c
    · subst hc
      rw [if_pos rfl]
      exact kept_call _ call (ih call.client)
    · rw [if_neg hc, List.append_nil, of_call _ call (Ne.symm hc)]
      exact ih c

/-- What is settled only grows at its end. -/
theorem settled_call {mine : List (Exchange S)} (q : Settlement S) (call : QueueCall S)
    (h : (q.of call.client).Kept mine) :
    (q.of call.client).settled <+: ((q.call call).2.of call.client).settled := by
  cases call with
  | push v =>
    simp only [Settlement.call, QueueCall.client, (of_push q v).2]
    rw [(ClientSettlement.push_eq (c := q.of v.client) h.increasing v).2]
  | begin client =>
    simp only [Settlement.call, QueueCall.client, (of_begin q client).2]
    cases hb : (q.of client).begin? with
    | none => exact List.prefix_rfl
    | some r =>
      obtain ⟨_, -, -, -, hd⟩ := ClientSettlement.begin_eq_some hb
      rw [Option.map_some, Option.getD_some, hd]
  | complete client reference =>
    simp only [Settlement.call, QueueCall.client, (of_complete q client reference).2]
    rw [ClientSettlement.Kept.complete_eq (c := q.of client) h]
    cases underWay mine with
    | none => exact List.prefix_rfl
    | some j => exact List.prefix_append ..
  | fail client =>
    simp only [Settlement.call, QueueCall.client, (of_fail q client).2]
    rw [ClientSettlement.Kept.fail_eq (c := q.of client) h]

/-- However pushes, beginnings, completions and failures of batches follow one another, for whatever clients:
the queue loses, repeats and reorders nothing. -/
theorem nothing_lost (calls : List (QueueCall S)) : Faithful (run calls).1 (run calls).2 := by
  have hkept := kept_run calls
  generalize (run calls).1 = history, (run calls).2 = q at hkept ⊢
  constructor
  case kept => exact fun c => (hkept c).handed
  case increasing => exact fun c => (hkept c).handed ▸ (hkept c).increasing
  case push_iff =>
    intro v
    have h := hkept v.client
    rw [(of_push q v).1, (ClientSettlement.push_eq h.increasing v).1]
    constructor
    · intro hnew w hw
      obtain ⟨x, hx, hle⟩ := h.offered w hw
      exact UInt64.lt_of_le_of_lt hle (hnew x hx)
    · intro hnew w hw
      rw [h.handed] at hw
      exact hnew w (ClientSettlement.mem_offered_of_queued hw)
  case push_lists =>
    intro v
    rw [(of_push q v).1, (of_push q v).2, (ClientSettlement.push_eq (hkept v.client).increasing v).2]
    exact ⟨rfl, rfl⟩
  case begin_iff =>
    intro c
    rw [(of_begin q c).1, Option.isSome_map, (hkept c).begin_iff]
  case begin_batch =>
    intro c b hb
    rw [(of_begin q c).1] at hb
    obtain ⟨⟨b, d⟩, hbegin, rfl⟩ := Option.map_eq_some_iff.mp hb
    obtain ⟨_, -, hvouchers, htotal, -⟩ := ClientSettlement.begin_eq_some hbegin
    exact ⟨hvouchers, by rw [htotal, Atoms.toNat_total, List.map_map]; rfl⟩
  case begin_lists =>
    intro c
    rw [(of_begin q c).2]
    cases hb : (q.of c).begin? with
    | none => exact ⟨rfl, rfl⟩
    | some r =>
      obtain ⟨_, -, -, -, hd⟩ := ClientSettlement.begin_eq_some hb
      simp [hd]
  case complete_idle =>
    intro c reference hidle
    unfold complete
    rw [(hkept c).complete_eq, hidle]
    rfl
  case complete_batch =>
    intro c reference j hj
    rw [(of_complete q c reference).1, (of_complete q c reference).2, (hkept c).complete_eq, hj]
    exact ⟨rfl, rfl, rfl⟩
  case fail_lists =>
    intro c
    rw [(of_fail q c).1, (of_fail q c).2, (hkept c).fail_eq]
    exact ⟨rfl, rfl, rfl⟩
  case grows =>
    intro call c
    by_cases hc : c = call.client
    · exact hc ▸ settled_call q call (hkept call.client)
    · rw [of_call q call hc]
  case apart => exact fun call c hne => of_call q call hne

end Settlement
end VoucherGateway
