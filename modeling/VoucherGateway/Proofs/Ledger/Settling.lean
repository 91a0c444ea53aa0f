import VoucherGateway.Proofs.Ledger.Reservations

/-!
# Settling in the ledger — the one way from a priced query to its receipt

Once the cost of a query is fixed, settling it is a fixed sequence of entries: the estimate is unlocked, the
cost is charged, and vouchers are spent on account of the query until the unmarked cost covers no more.  At
every ledger at most one entry is next (`Nears.rightUnique`), so wherever an attempt breaks off, the following
one goes on along the same way.  The way ends at a ledger from which the receipt is written (`Arrived`), or at
one where the cost does not fit (`Stuck`).

Main statement: an attempt follows the way, and if no store fails it comes to the end (`ends_finishSettling`).
-/

namespace VoucherGateway

variable {S : Scheme}

/-- A call that came to an answer ends with it, or panics; only where the total of an event runs over. -/
def Counters.Tells {α : Type} (c : Counters) (e : Event) (answer : α) (told : Completion α) : Prop :=
  told = .returned answer ∨ c.runsOver e = true ∧ told = .panicked .overflow

theorem Counters.tells_told {α : Type} (c : Counters) (e : Event) (answer : α) :
    c.Tells e answer (c.told e answer) := by
  unfold Counters.told
  split
  · next hover => exact .inr ⟨hover, rfl⟩
  · exact .inl rfl

/-- The entries by which a query of a client is settled, for a cost unless it was fixed before. -/
def Entry.Settles (client : S.Party) (id : QueryId) (cost : Atoms) : Entry S → Prop
  | .priced q c => q.id = id ∧ c = cost
  | .released q | .charged q _ | .settled q _ _ => q.id = id
  | e => e.Spends client

theorem Entry.Spends.settles {client : S.Party} {id : QueryId} {cost : Atoms} {e : Entry S}
    (h : e.Spends client) : e.Settles client id cost := by
  cases e with
  | begun _ _ _ => exact h
  | marked _ _ => exact h
  | completed _ _ => exact h
  | _ => cases h

/-- An entry of a settlement that is about a query is about the query that is settled. -/
theorem Entry.Settles.subject {client : S.Party} {id x : QueryId} {cost : Atoms} {e : Entry S}
    (h : e.Settles client id cost) (hsubject : e.subject = some x) : x = id := by
  cases e with
  | priced q c => exact (Option.some.inj hsubject).symm.trans h.1
  | released q => exact (Option.some.inj hsubject).symm.trans h
  | charged q c => exact (Option.some.inj hsubject).symm.trans h
  | settled q receipt time => exact (Option.some.inj hsubject).symm.trans h
  | aborted q forced time => cases h
  | _ => cases hsubject

/-- The entries that may be next when a query is settled. -/
inductive Query.Next (q : Query S) : Entry S → Prop
  | release : q.Next (.released q)
  | charge (cost : Atoms) : q.Next (.charged q cost)
  | spend {e : Entry S} (charged : q.charged = true) (spends : e.SpendsFor q.client (some q.id)) : q.Next e

theorem Entry.SpendsFor.cases {client : S.Party} {query : Option QueryId} {e : Entry S}
    (h : e.SpendsFor client query) :
    (∃ v, e = .begun client v query) ∨ (∃ p, e = .marked client p) ∨ ∃ p, e = .completed client p := by
  cases e with
  | begun c v q =>
    obtain ⟨rfl, rfl⟩ := h
    exact .inl ⟨v, rfl⟩
  | marked c p =>
    obtain rfl : c = client := h
    exact .inr (.inl ⟨p, rfl⟩)
  | completed c p =>
    obtain rfl : c = client := h
    exact .inr (.inr ⟨p, rfl⟩)
  | _ => cases h

theorem Query.Next.settles {q : Query S} {cost : Atoms} {e : Entry S} (h : q.Next e) :
    e.Settles q.client q.id cost := by
  cases h with
  | release => rfl
  | charge _ => rfl
  | spend _ spends => exact spends.spends.settles

/-- What may be next for a query stirs up nobody but its client. -/
theorem Query.Next.stirs {q : Query S} {e : Entry S} {client : S.Party} (h : q.Next e)
    (hs : e.Stirs client) : q.client = client := by
  cases h with
  | release => cases hs
  | charge _ => exact hs
  | spend _ spends =>
    rcases spends.cases with ⟨v, rfl⟩ | ⟨p, rfl⟩ | ⟨p, rfl⟩
    · exact hs
    · cases hs
    · cases hs

/-- What may be next for a query is not counted. -/
theorem Query.Next.counters {q : Query S} {e : Entry S} (h : q.Next e) (L : Ledger S) :
    (L.post e).counters = L.counters := by
  cases h with
  | release => rfl
  | charge _ => rfl
  | spend _ spends =>
    rcases spends.cases with ⟨v, rfl⟩ | ⟨p, rfl⟩ | ⟨p, rfl⟩ <;> rfl

theorem Query.moveTo_of_locked (q : Query S) (hst : q.state = .locked) {target : QueryState}
    (hfin : target.isFinal = true) (time : Nat) :
    q.moveTo target time = .ok { q with state := target, finishedAt := some time } := by
  unfold Query.moveTo
  rw [hst]
  cases target with
  | pending => cases hfin
  | locked => cases hfin
  | settled => rfl
  | aborted => rfl

namespace Ledger

variable {L M N : Ledger S} {q : Query S} {id : QueryId}

/-! ## The way -/

/-- One ledger after another by an entry that is next when a query is settled. -/
def Nears (id : QueryId) (L M : Ledger S) : Prop :=
  L.Sound ∧ ∃ q ∈ L.queries.rows, q.id = id ∧ ∃ e, q.Next e ∧ L.Allows e ∧ M = L.post e

/-- One ledger after another on the way of settling a query. -/
abbrev Way (id : QueryId) : Ledger S → Ledger S → Prop := Relation.ReflTransGen (Nears id)

/-- No two entries of a spend may be written next. -/
theorem spend_unique {client : S.Party} {query : Option QueryId} {e e' : Entry S} (ha : L.Allows e)
    (ha' : L.Allows e') (h : e.SpendsFor client query) (h' : e'.SpendsFor client query) : e = e' := by
  rcases h.cases with ⟨v, rfl⟩ | ⟨p, rfl⟩ | ⟨p, rfl⟩ <;> rcases h'.cases with ⟨w, rfl⟩ | ⟨p', rfl⟩ | ⟨p', rfl⟩
  · -- both vouchers are the one behind those handed over
    have hpre := List.prefix_of_prefix_length_le ha.2.1 ha'.2.1 (by simp)
    have hv := List.append_cancel_left (hpre.eq_of_length (by simp))
    rw [List.singleton_inj.1 hv]
  · exact absurd (ha.1.symm.trans ha'.1) nofun
  · exact absurd (ha.1.symm.trans ha'.1) nofun
  · exact absurd (ha.1.symm.trans ha'.1) nofun
  · rw [Option.some.inj (ha.1.symm.trans ha'.1)]
  · obtain rfl := Option.some.inj (ha.1.symm.trans ha'.1)
    exact absurd (ha.2.symm.trans ha'.2) nofun
  · exact absurd (ha.1.symm.trans ha'.1) nofun
  · obtain rfl := Option.some.inj (ha.1.symm.trans ha'.1)
    exact absurd (ha.2.symm.trans ha'.2) nofun
  · rw [Option.some.inj (ha.1.symm.trans ha'.1)]

/-- The flags of a query tell which entry is next. -/
theorem next_unique (hs : q.Sound) {e e' : Entry S} (ha : L.Allows e) (ha' : L.Allows e') (h : q.Next e)
    (h' : q.Next e') : e = e' := by
  cases h with
  | release =>
    cases h' with
    | release => rfl
    | charge cost => exact absurd (ha.2.2.symm.trans ha'.2.2.1) nofun
    | spend charged spends => exact absurd (ha.2.2.symm.trans (hs.charged_released charged)) nofun
  | charge cost =>
    cases h' with
    | release => exact absurd (ha'.2.2.symm.trans ha.2.2.1) nofun
    | charge cost' => rw [Option.some.inj (ha.2.2.2.2.1.symm.trans ha'.2.2.2.2.1)]
    | spend charged spends => exact absurd (ha.2.2.2.1.symm.trans charged) nofun
  | spend charged spends =>
    cases h' with
    | release => exact absurd (ha'.2.2.symm.trans (hs.charged_released charged)) nofun
    | charge cost => exact absurd (ha'.2.2.2.1.symm.trans charged) nofun
    | spend _ spends' => exact spend_unique ha ha' spends spends'

theorem Nears.rightUnique (id : QueryId) : Relator.RightUnique (Nears (S := S) id) := by
  rintro L M N ⟨hL, q, hq, rfl, e, he, ha, rfl⟩ ⟨-, q', hq', hid, e', he', ha', rfl⟩
  obtain rfl := hL.same hq' hq hid
  rw [next_unique (hL.rows _ hq) ha ha' he he']

/-- A way has one end. -/
theorem Way.unique (hM : Way id L M) (hN : Way id L N) (hendM : ∀ K, ¬ Nears id M K)
    (hendN : ∀ K, ¬ Nears id N K) : M = N := by
  rcases Relation.ReflTransGen.total_of_right_unique (Nears.rightUnique id) hM hN with h | h
  · rcases Relation.ReflTransGen.cases_head h with rfl | ⟨K, hK, -⟩
    · rfl
    · exact absurd hK (hendM K)
  · rcases Relation.ReflTransGen.cases_head h with rfl | ⟨K, hK, -⟩
    · rfl
    · exact absurd hK (hendN K)

theorem Nears.of_row (hL : L.Sound) (hq : q ∈ L.queries.rows) {e : Entry S} (he : q.Next e)
    (ha : L.Allows e) : Nears q.id L (L.post e) :=
  ⟨hL, q, hq, rfl, e, he, ha, rfl⟩

theorem Way.sound (h : Way id L M) (hL : L.Sound) : M.Sound := by
  induction h with
  | refl => exact hL
  | tail _ hstep ih =>
    obtain ⟨-, _, -, -, e, -, ha, rfl⟩ := hstep
    exact ih.post ha

theorem Way.counters (h : Way id L M) : M.counters = L.counters := by
  induction h with
  | refl => rfl
  | tail _ hstep ih =>
    obtain ⟨-, _, -, -, e, he, -, rfl⟩ := hstep
    exact (he.counters _).trans ih

/-- All that changes of the query on the way are its flags and the list of vouchers that it used up. -/
theorem Way.row (h : Way id L M) (hq : q ∈ L.queries.rows) (hid : q.id = id) :
    ∃ released charged ids,
      { q with released := released, charged := charged, consumed := ids } ∈ M.queries.rows := by
  induction h with
  | refl => exact ⟨q.released, q.charged, q.consumed, hq⟩
  | tail hpath hstep ih =>
    obtain ⟨hN, x, hx, hxid, e, he, ha, rfl⟩ := hstep
    obtain ⟨released, charged, ids, hmem⟩ := ih
    obtain rfl := hN.same hx hmem (hxid.trans hid.symm)
    have hkeep : ∀ y, e.keeps y = true := Entry.keeps_of_not_purged <| by
      rintro _ _ rfl
      cases he with
      | spend _ spends => cases spends
    have ht := turns_onRow hN.numbered ha hmem
    have hafter : e.onRow _ ∈ (Ledger.post _ e).queries.rows := mem_rows_of_keeps (hkeep _) hmem
    generalize e.onRow _ = y at ht hafter
    cases ht with
    | same => exact ⟨_, _, _, hafter⟩
    | completed => exact ⟨_, _, _, hafter⟩
    | released => exact ⟨_, _, _, hafter⟩
    | charged => exact ⟨_, _, _, hafter⟩
    | _ =>
      cases he with
      | spend _ spends => cases spends

/-- On the way nothing is written but what may be next for the query. -/
theorem Way.course (h : Way id L M) (hq : q ∈ L.queries.rows) (hid : q.id = id) :
    Trail (fun e => ∃ x : Query S, x.id = q.id ∧ x.client = q.client ∧ x.Next e) L M := by
  induction h with
  | refl => exact .refl
  | tail hpath hstep ih =>
    obtain ⟨released, charged, ids, hmem⟩ := Way.row hpath hq hid
    obtain ⟨hN, x, hx, hxid, e, he, ha, rfl⟩ := hstep
    have hid' : x.id = q.id := hxid.trans hid.symm
    have hclient : x.client = q.client := by rw [hN.same hx hmem hid']
    exact ih.tail ⟨e, ⟨x, hid', hclient, he⟩, ha, rfl⟩

/-- The way of settling a query consists of entries by which it is settled. -/
theorem Way.trail (h : Way id L M) (hq : q ∈ L.queries.rows) (hid : q.id = id) (cost : Atoms) :
    Trail (Entry.Settles q.client id cost) L M := by
  subst hid
  refine (h.course hq rfl).widen ?_
  rintro e ⟨x, hxid, hclient, he⟩
  rw [← hxid, ← hclient]
  exact he.settles

/-- Spending vouchers changes nothing of a query but the list of vouchers that it used up. -/
theorem Trail.consuming {client : S.Party} (ht : Trail (Entry.Spends client) L M) (hL : L.Sound)
    (hq : q ∈ L.queries.rows) : ∃ ids, { q with consumed := ids } ∈ M.queries.rows := by
  have hstep : ∀ {N : Ledger S} {e x}, Entry.Spends client e → N.Allows e → N.queries.Numbered →
      x ∈ N.queries.rows → x.Refills (e.onRow x) := fun he ha hn hx =>
    (turns_onRow hn ha hx).refills (by rw [he.subject]; exact nofun)
  have hkeep : ∀ (e : Entry S) x, Entry.Spends client e → e.keeps x = true := fun e x he =>
    Entry.keeps_of_not_purged (by rintro _ _ rfl; cases he) x
  obtain ⟨q', hq', -, ids, rfl⟩ :=
    Trail.persists .refl (fun _ _ => .trans) hstep hkeep ht hL.numbered hq
  exact ⟨ids, hq'⟩

/-- As long as the query on the way is not charged, nothing but its estimate is unlocked. -/
theorem Way.of_uncharged (h : Way id L M) (hq : q ∈ M.queries.rows) (hid : q.id = id)
    (hch : q.charged = false) : Trail (fun e => ∃ x, e = .released x) L M := by
  induction h generalizing q with
  | refl => exact .refl
  | tail hpath hstep ih =>
    obtain ⟨hN, x, hx, hxid, e, he, ha, rfl⟩ := hstep
    have hb := becomes_onRow hN.numbered ha hx
    have hkeep : e.keeps x = true := Entry.keeps_of_not_purged (by
      rintro _ _ rfl
      cases he with
      | spend _ spends => cases spends) x
    obtain rfl := (hN.post ha).same (mem_rows_of_keeps hkeep hx) hq (hb.id.trans (hxid.trans hid.symm))
    -- a charge is not taken back
    have hx_ch : x.charged = false := by
      rw [← Bool.not_eq_true]
      intro hch'
      exact absurd (hch.symm.trans (hb.charged hch')) nofun
    cases he with
    | release => exact (ih hx hxid hx_ch).tail ⟨_, ⟨x, rfl⟩, ha, rfl⟩
    | charge cost =>
      have hcharged : (Entry.onRow (.charged x cost) x).charged = true := by simp [Entry.onRow]
      exact absurd (hch.symm.trans hcharged) nofun
    | spend charged _ => exact absurd (hx_ch.symm.trans charged) nofun

/-- Unlocking estimates changes only what is locked, and queries. -/
theorem Trail.rest_of_released (ht : Trail (fun e => ∃ x, e = .released x) L M) :
    ∃ locked queries, M = { L with locked := locked, queries := queries } := by
  induction ht with
  | refl => exact ⟨L.locked, L.queries, rfl⟩
  | tail _ hstep ih =>
    obtain ⟨_, _, rfl⟩ := ih
    obtain ⟨_, ⟨x, rfl⟩, -, rfl⟩ := hstep
    exact ⟨_, _, rfl⟩

/-- Settling a query changes nothing of another one but the list of vouchers that it used up. -/
theorem Trail.apart {client : S.Party} {cost : Atoms} (ht : Trail (Entry.Settles client id cost) L M)
    (hL : L.Sound) {q' : Query S} (hq' : q' ∈ M.queries.rows) (hne : q'.id ≠ id) :
    ∃ q ∈ L.queries.rows, q.Becomes q' ∧ ∃ ids, q' = { q with consumed := ids } := by
  rcases Trail.origin (P := fun x y => x.id ≠ id → x.Refills y) (fun x _ => .refl x)
      (fun hxy _ h h' hne => (h hne).trans (h' (hxy.id ▸ hne)))
      (fun he ha hn hx hne => (turns_onRow hn ha hx).refills fun hsubject => hne (he.subject hsubject))
      ht hL.numbered hq'
    with ⟨q, hq, hb, hsame⟩ | ⟨_, _, he, -⟩
  · exact ⟨q, hq, hb, hsame (hb.id ▸ hne)⟩
  · cases he

/-- Spending on account of a query that is charged is going the way. -/
theorem Trail.way (ht : Trail (Entry.SpendsFor q.client (some q.id)) L M) (hL : L.Sound)
    (hq : q ∈ L.queries.rows) (hch : q.charged = true) : Way q.id L M := by
  induction ht with
  | refl => exact .refl
  | tail hpath hstep ih =>
    rcases hstep with ⟨e, he, ha, rfl⟩
    obtain ⟨ids, hmem⟩ := Trail.consuming (Trail.widen hpath fun _ h => h.spends) hL hq
    exact ih.tail (Nears.of_row (hL.trail hpath) hmem (.spend hch he) ha)

/-! ## The ends of the way -/

/-- A query that is paid for, and whose client has no voucher left that the unmarked cost covers. -/
structure Arrived (L : Ledger S) (q : Query S) (cost : Atoms) : Prop where
  row : q ∈ L.queries.rows
  locked : q.state = .locked
  released : q.released = true
  charged : q.charged = true
  priced : q.actual = some cost
  done : L.pending q.client = none
  absorbed : L.Absorbed q.client

/-- A query whose cost does not fit on top of the unmarked cost. -/
structure Stuck (L : Ledger S) (q : Query S) (cost : Atoms) : Prop where
  row : q ∈ L.queries.rows
  released : q.released = true
  uncharged : q.charged = false
  priced : q.actual = some cost
  exceeds : Atoms.top.toNat < (L.unmarkedOf q.client).toNat + cost.toNat

theorem Arrived.ends {cost : Atoms} (h : L.Arrived q cost) (K : Ledger S) : ¬ Nears q.id L K := by
  rintro ⟨hL, x, hx, hid, e, he, ha, -⟩
  obtain rfl := hL.same hx h.row hid
  cases he with
  | release => exact absurd (ha.2.2.symm.trans h.released) nofun
  | charge cost => exact absurd (ha.2.2.2.1.symm.trans h.charged) nofun
  | spend charged spends =>
    rcases spends.cases with ⟨v, rfl⟩ | ⟨p, rfl⟩ | ⟨p, rfl⟩
    · -- the voucher would be the oldest one that is not spent, and is not covered
      obtain ⟨rest, hrest⟩ := ha.2.1
      have hunspent : (L.chain x.client).unspent = v :: rest :=
        hL.unspent_eq (by rw [unreduced_eq_none h.done, ← hrest]; simp)
      have hlt : L.unmarkedOf x.client < v.atoms := h.absorbed v (by simp [hunspent])
      exact absurd ha.2.2.1 (UInt64.not_le.2 hlt)
    · exact absurd (h.done.symm.trans ha.1) nofun
    · exact absurd (h.done.symm.trans ha.1) nofun

theorem Stuck.ends {cost : Atoms} (h : L.Stuck q cost) (K : Ledger S) : ¬ Nears q.id L K := by
  rintro ⟨hL, x, hx, hid, e, he, ha, -⟩
  obtain rfl := hL.same hx h.row hid
  cases he with
  | release => exact absurd (ha.2.2.symm.trans h.released) nofun
  | charge cost' =>
    obtain rfl := Option.some.inj (h.priced.symm.trans ha.2.2.2.2.1)
    exact absurd ha.2.2.2.2.2 (Nat.not_le.2 h.exceeds)
  | spend charged spends => exact absurd (h.uncharged.symm.trans charged) nofun

/-- The client's voucher that the unmarked cost uses in part. -/
def partlyUsed (L : Ledger S) (client : S.Party) : Option (VoucherId S) :=
  if 0 < L.unmarkedOf client then (L.chain client).unspent.head?.map (·.id) else none

/-- What the client is told about a query that is paid for. -/
def receipt (L : Ledger S) (q : Query S) (cost : Atoms) : Receipt S where
  query := q.id
  session := q.session
  estimated := q.estimated
  actual := cost
  consumed := q.consumed
  partlyUsed := L.partlyUsed q.client
  creditAfter := L.credit q.client

theorem Arrived.allows {cost : Atoms} (h : L.Arrived q cost) (time : Nat) :
    L.Allows (.settled q (L.receipt q cost) time) :=
  ⟨h.row, h.locked, h.released, h.charged, h.done, h.priced, rfl⟩

/-- A query of a number is settled at the end of the way. -/
def Settled (L : Ledger S) (id : QueryId) (cost : Atoms) (receipt : Receipt S) (N : Ledger S) : Prop :=
  ∃ M q time, Way id L M ∧ q.id = id ∧ M.Arrived q cost ∧ receipt = M.receipt q cost ∧
    N = M.post (.settled q receipt time)

/-- An attempt to settle a query of a number broke off on the way, or got stuck at the end of it. -/
def BrokeOff (L : Ledger S) (id : QueryId) (cost : Atoms) (e : Error) (N : Ledger S) : Prop :=
  Way id L N ∧ (e.IsOutage ∨ ∃ q, q.id = id ∧ N.Stuck q cost ∧
    e = .violation (.overflow .unmarked (S.partyText q.client) (N.unmarkedOf q.client) cost))

/-- What the caller is told once a query of a number is settled: the receipt, unless the counters panic. -/
def Answered (L : Ledger S) (id : QueryId) (cost : Atoms) (answer : Completion (Receipt S)) (N : Ledger S) :
    Prop :=
  ∃ receipt, L.Settled id cost receipt N ∧ answer = L.counters.told (.querySettled cost) receipt

theorem Settled.after {cost : Atoms} {r : Receipt S} (h : M.Settled id cost r N) (hM : Way id L M) :
    L.Settled id cost r N := by
  obtain ⟨K, q, time, hK, hend⟩ := h
  exact ⟨K, q, time, hM.trans hK, hend⟩

theorem Answered.after {cost : Atoms} {answer : Completion (Receipt S)} (h : M.Answered id cost answer N)
    (hM : Way id L M) : L.Answered id cost answer N := by
  obtain ⟨receipt, hsettled, rfl⟩ := h
  exact ⟨receipt, hsettled.after hM, by rw [hM.counters]⟩

theorem BrokeOff.after {cost : Atoms} {e : Error} (h : M.BrokeOff id cost e N) (hM : Way id L M) :
    L.BrokeOff id cost e N :=
  ⟨hM.trans h.1, h.2⟩

/-- The ledger when the estimate of a query is unlocked. -/
def unlocking (L : Ledger S) (q : Query S) : Ledger S := if q.released then L else L.post (.released q)

/-- The ledger when the cost of a query is charged. -/
def charging (L : Ledger S) (q : Query S) (cost : Atoms) : Ledger S :=
  if q.charged then L else L.post (.charged q cost)

theorem way_unlocking (hL : L.Sound) (hq : q ∈ L.queries.rows) (hst : q.state = .locked) :
    Way q.id L (L.unlocking q) ∧ { q with released := true } ∈ (L.unlocking q).queries.rows := by
  unfold unlocking
  cases hrel : q.released with
  | true =>
    refine ⟨.refl, ?_⟩
    rw [if_pos rfl, ← hrel]
    exact hq
  | false =>
    have ha : L.Allows (.released q) := ⟨hq, hst, hrel⟩
    exact ⟨.single (Nears.of_row hL hq .release ha),
      QueryTable.mem_update hq fun x => { x with released := true }⟩

theorem way_charging {cost : Atoms} (hL : L.Sound) (hq : q ∈ L.queries.rows) (hst : q.state = .locked)
    (hrel : q.released = true) (hact : q.actual = some cost)
    (hfits : q.charged = false → (L.unmarkedOf q.client).toNat + cost.toNat ≤ Atoms.top.toNat) :
    Way q.id L (L.charging q cost) ∧ { q with charged := true } ∈ (L.charging q cost).queries.rows := by
  unfold charging
  cases hch : q.charged with
  | true =>
    refine ⟨.refl, ?_⟩
    rw [if_pos rfl, ← hch]
    exact hq
  | false =>
    have ha : L.Allows (.charged q cost) := ⟨hq, hst, hrel, hch, hact, hfits hch⟩
    exact ⟨.single (Nears.of_row hL hq (.charge cost) ha),
      QueryTable.mem_update hq fun x => { x with charged := true }⟩

end Ledger

namespace Gateway

variable {g : Gateway S} {L : Ledger S} {q : Query S}

theorem ends_findQuery (id : QueryId) (hg : g.ledger = L) :
    Ends (fun q g' => g'.ledger = L ∧ L.queries.find? id = some q)
      (fun e g' => g'.ledger = L ∧ L.queries.find? id = none ∧ e.isFatal = false)
      ((findQuery id).run g) := by
  subst hg
  unfold findQuery
  rw [Action.run_get_bind]
  cases hq : g.queries.find? id with
  | none => exact ⟨rfl, hq, rfl⟩
  | some q => exact ⟨rfl, hq⟩

theorem run_findQuery (hL : L.Sound) (hg : g.ledger = L) (hq : q ∈ L.queries.rows) :
    (findQuery q.id).run g = (.ok q, g) := by
  subst hg
  have hf : g.queries.find? q.id = some q := hL.numbered.find? hq
  unfold findQuery
  rw [Action.run_get_bind, hf]
  rfl

/-! ## The steps of settling -/

/-- An estimate is unlocked unless it is unlocked already. -/
theorem ends_releaseEstimate (hL : L.Sound) (hg : g.ledger = L) (hq : q ∈ L.queries.rows)
    (hst : q.state = .locked) :
    Ends (fun _ g' => g'.ledger = L.unlocking q) (fun e g' => g'.ledger = L ∧ e.IsOutage)
      ((releaseEstimate q).run g) := by
  unfold releaseEstimate Ledger.unlocking
  cases hrel : q.released with
  | true => exact hg
  | false =>
    have hle := hL.held_le hq hst hrel
    refine Action.ends_bind (ends_subtractLocked q.client q.estimated hg hle) ?_
    rintro left g' ⟨hg', rfl⟩
    exact congrArg (fun M : Ledger S =>
      { M with queries := M.queries.update q.id fun x => { x with released := true } }) hg'

/-- A cost is charged once, if it fits. -/
theorem ends_charge {cost : Atoms} (hg : g.ledger = L) :
    Ends
      (fun a g' => g'.ledger = L.charging q cost ∧ a = (L.charging q cost).unmarkedOf q.client ∧
        (q.charged = false → (L.unmarkedOf q.client).toNat + cost.toNat ≤ Atoms.top.toNat))
      (fun e g' => g'.ledger = L ∧ (e.IsOutage ∨ q.charged = false ∧
        Atoms.top.toNat < (L.unmarkedOf q.client).toNat + cost.toNat ∧
        e = .violation (.overflow .unmarked (S.partyText q.client) (L.unmarkedOf q.client) cost)))
      ((charge q cost).run g) := by
  unfold charge Ledger.charging
  cases hch : q.charged with
  | true =>
    exact (ends_readUnmarked q.client hg).mono (fun _ _ h => ⟨h.1, h.2, nofun⟩) fun _ _ h => ⟨h.1, .inl h.2⟩
  | false =>
    -- whether or not the store is asked to add, the unmarked cost is the sum afterwards
    have hsum : (L.post (.charged q cost)).unmarkedOf q.client = L.unmarkedOf q.client + cost := by
      rw [Ledger.unmarkedOf_post]
      exact if_pos rfl
    have flagged : ∀ {g' : Gateway S},
        g'.ledger = { L with unmarked := (L.post (.charged q cost)).unmarked } →
        Gateway.ledger { g' with queries := g'.queries.update q.id fun x => { x with charged := true } } =
          L.post (.charged q cost) := fun hg' =>
      congrArg (fun M : Ledger S =>
        { M with queries := M.queries.update q.id fun x => { x with charged := true } }) hg'
    dsimp only
    simp only [Bool.false_eq_true, if_false, true_and, forall_const]
    split
    · next hpos =>
      refine Action.ends_bind (ends_addUnmarked q.client cost hg) ?_
      rintro a g' ⟨hg', rfl, hfits⟩
      refine ⟨flagged ?_, hsum.symm, hfits⟩
      simp only [hg', Ledger.post, hpos, if_true]
    · next hpos =>
      have hzero : cost = 0 := by simpa using hpos
      refine Action.ends_bind ((ends_readUnmarked q.client hg).mono_error fun _ _ h => ⟨h.1, .inl h.2⟩) ?_
      rintro a g' ⟨hg', rfl⟩
      refine ⟨flagged ?_, by rw [hsum, hzero]; simp, ?_⟩
      · simp only [hg', Ledger.post, hpos, if_false]
      · rw [hzero]
        exact Atoms.toNat_le_top _

/-- A query that is paid for gets its receipt. -/
theorem ends_issueReceipt {cost : Atoms} {creditAfter : CreditState} {partlyUsed : Option (VoucherId S)}
    (hL : L.Sound) (hg : g.ledger = L) (hq : q ∈ L.queries.rows) (hst : q.state = .locked)
    (hcredit : creditAfter = L.credit q.client)
    (hpartly : partlyUsed = L.partlyUsed q.client) :
    Ends
      (fun answer g' => answer = L.counters.told (.querySettled cost) (L.receipt q cost) ∧
        ∃ time, g'.ledger = L.post (.settled q (L.receipt q cost) time))
      (fun _ _ => False)
      ((do
        let receipt ← issueReceipt q.id cost partlyUsed creditAfter
        report (.querySettled cost) receipt : Step S (Completion (Receipt S))).run g) := by
  have hissue : (issueReceipt q.id cost partlyUsed creditAfter).run g =
      (.ok (L.receipt q cost), { g with queries := g.queries.update q.id fun _ =>
        { q with state := .settled, finishedAt := some g.now, receipt := some (L.receipt q cost) } }) := by
    subst hcredit hpartly
    unfold issueReceipt
    rw [Action.run_get_bind, Action.run_bind_of_ok (run_findQuery hL hg hq), Query.moveTo_of_locked q hst rfl,
      Action.run_give_ok_bind]
    rfl
  rw [Action.run_bind_of_ok hissue, run_report]
  subst hg
  exact ⟨rfl, g.now, ledger_count _ _⟩

/-! ## An attempt -/

/-- For a query that is charged, what is covered is spent, and then the receipt is written. -/
theorem ends_settleCharged {cost unmarked : Atoms} (hL : L.Sound) (hg : g.ledger = L)
    (hq : q ∈ L.queries.rows) (hst : q.state = .locked) (hrel : q.released = true) (hch : q.charged = true)
    (hact : q.actual = some cost) (hu : unmarked = L.unmarkedOf q.client) :
    Ends (fun answer g' => L.Answered q.id cost answer g'.ledger)
      (fun e g' => L.BrokeOff q.id cost e g'.ledger)
      ((do
        absorb q.client unmarked (some q.id)
        let g ← get
        let creditAfter ← creditState g.vendor q.client
        let head ← if 0 < creditAfter.unmarked then headVoucher g.vendor q.client else pure none
        let receipt ← issueReceipt q.id cost (head.map (·.voucher.id)) creditAfter
        report (.querySettled cost) receipt : Step S (Completion (Receipt S))).run g) := by
  have hserves : ∀ id, some q.id = some id → L.Serves q.client id := by
    rintro id ⟨⟩
    exact hL.serves_of_mem hq hst
  have habsorb := writes_absorb (fun e (h : Entry.SpendsFor q.client (some q.id) e) => h) hL hg hu hserves
  refine Action.ends_bind (Ends.mono_error habsorb fun _ _ h => ⟨h.1.way hL hq hch, .inl h.2⟩) ?_
  rintro _ g₁ ⟨ht, hp, habsorbed⟩
  have way := ht.way hL hq hch
  have hM := hL.trail ht
  obtain ⟨ids, hmem⟩ := (ht.widen fun _ h => h.spends).consuming hL hq
  have arrived : g₁.ledger.Arrived { q with consumed := ids } cost :=
    ⟨hmem, hst, hrel, hch, hact, hp, habsorbed⟩
  -- what is read for the receipt is what the ledger says
  have issued : ∀ {partlyUsed creditAfter g'}, g'.ledger = g₁.ledger →
      creditAfter = g₁.ledger.credit q.client → partlyUsed = g₁.ledger.partlyUsed q.client →
      Ends (fun answer g' => L.Answered q.id cost answer g'.ledger)
        (fun e g' => L.BrokeOff q.id cost e g'.ledger)
        ((do
          let receipt ← issueReceipt q.id cost partlyUsed creditAfter
          report (.querySettled cost) receipt : Step S (Completion (Receipt S))).run g') := by
    intro partlyUsed creditAfter g' hg' hcredit hpartly
    refine (ends_issueReceipt hM hg' hmem hst hcredit hpartly).mono ?_ fun _ _ h => h.elim
    rintro answer g'' ⟨rfl, time, hpost⟩
    exact ⟨_, ⟨_, { q with consumed := ids }, time, way, rfl, arrived, rfl, hpost⟩, by rw [way.counters]⟩
  have brokeOff : ∀ e (g' : Gateway S), g'.ledger = g₁.ledger ∧ e.IsOutage →
      L.BrokeOff q.id cost e g'.ledger := by
    rintro e g' ⟨hg', he⟩
    exact ⟨hg' ▸ way, .inl he⟩
  rw [Action.run_get_bind]
  refine Action.ends_bind ((ends_creditState rfl rfl).mono_error brokeOff) ?_
  rintro creditAfter g₂ ⟨hg₂, rfl⟩
  split
  · next hpos =>
    refine Action.ends_bind ((ends_headVoucher hg₂ rfl).mono_error brokeOff) ?_
    rintro head g₃ ⟨hg₃, hhead⟩
    have hpos : 0 < g₁.ledger.unmarkedOf q.client := hpos
    refine issued hg₃ rfl ?_
    rw [Ledger.partlyUsed, if_pos hpos, ← hhead, Option.map_map]
    rfl
  · next hpos =>
    exact issued hg₂ rfl (if_neg hpos).symm

/-- A query whose cost is fixed is settled, or stays as far as the attempt has got. -/
theorem ends_finishSettling {cost : Atoms} (usage : Usage) (hL : L.Sound) (hg : g.ledger = L)
    (hq : q ∈ L.queries.rows) (hst : q.state = .locked) (hact : q.actual = some cost) :
    Ends (fun answer g' => L.Answered q.id cost answer g'.ledger)
      (fun e g' => L.BrokeOff q.id cost e g'.ledger) ((finishSettling q usage).run g) := by
  have hfix : fixCost q usage = pure cost := by
    unfold fixCost
    rw [hact]
  unfold finishSettling
  rw [hfix, pure_bind]
  refine Action.ends_bind ((ends_releaseEstimate hL hg hq hst).mono_error ?_) ?_
  · rintro e g' ⟨rfl, he⟩
    exact ⟨.refl, .inl he⟩
  rintro _ g₁ hg₁
  obtain ⟨way₁, hq₁⟩ := Ledger.way_unlocking hL hq hst
  rw [← hg₁] at way₁ hq₁
  have hL₁ := way₁.sound hL
  refine Action.ends_bind ((ends_charge rfl).mono_error ?_) ?_
  · rintro e g' ⟨hg', hout | ⟨hch, hlt, rfl⟩⟩
    · exact ⟨hg' ▸ way₁, .inl hout⟩
    · rw [← hg'] at way₁ hq₁ hlt
      exact ⟨way₁, .inr ⟨{ q with released := true }, rfl, ⟨hq₁, rfl, hch, hact, hlt⟩, by rw [hg']⟩⟩
  rintro unmarked g₂ ⟨hg₂, hu, hfits⟩
  obtain ⟨way₂, hq₂⟩ := Ledger.way_charging hL₁ hq₁ hst rfl hact hfits
  have hpaid := ends_settleCharged (way₂.sound hL₁) hg₂ hq₂ hst rfl rfl hact hu
  exact hpaid.mono (fun _ _ h => h.after (way₁.trans way₂)) fun _ _ h => h.after (way₁.trans way₂)

end Gateway
end VoucherGateway
