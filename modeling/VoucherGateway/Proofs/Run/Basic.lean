import VoucherGateway.Proofs.Ledger.Books
import VoucherGateway.Proofs.Ledger.Reaping

/-!
# Runs — a gateway called again and again

A run begins with a gateway whose stores are empty.  Each move of a run is one call, in a world of its own:
which calls to the stores fail while it lasts, and what is read from the chain and its clock, is arbitrary.
The moves of a run are listed newest first.

Main statement: a move writes entries that its call permits, and nothing in it is a contradiction but a cost
that does not fit, out of a settlement, which halts the client (`conduct`).
-/

namespace VoucherGateway

variable {S : Scheme}

/-- What a gateway finds outside: the outages of its stores, and the chain. -/
structure World (S : Scheme) where
  vouchers : Outage VoucherCall
  unmarked : Outage CostCall
  balances : Outage CostCall
  chain : ChainReader S

/-- A world in which every store answers, and the chain too, with these standings. -/
def World.answering (standings : Table S.Party ChainSnapshot) : World S where
  vouchers := {}
  unmarked := {}
  balances := {}
  chain := { source := { snapshots := standings } }

/-- What a gateway is asked to do. -/
inductive Call (S : Scheme)
  | acceptSession (v : Voucher S)
  | topUp (id : SessionId) (v : Voucher S)
  | acceptQuery (session : SessionId) (estimated : Atoms)
  | settleQuery (id : QueryId) (usage : Usage)
  | abortQuery (id : QueryId)
  | closeSession (id : SessionId)
  | resumeClient (client : S.Party)
  | reap (asOf : Nat)
  | beginBatch (client : S.Party)
  | completeBatch (client : S.Party) (reference : String)
  | failBatch (client : S.Party)

/-- What the caller gets of a gateway that does not refuse the call. -/
inductive Reply (S : Scheme)
  | done
  | session (id : SessionId)
  | query (id : QueryId)
  | receipt (r : Receipt S)
  | resumed (wasHalted : Bool)
  | reaped (report : ReapReport)
  | batch (b : Option (SettlementBatch S))
  | completed (count : Option Nat)
  | failed (wasBegun : Bool)
  /-- No answer: the call is done, and panicked after that. -/
  | panicked (p : Panic)

/-- What the caller gets of a call that may panic once it is done. -/
def Completion.reply {α : Type} (answer : α → Reply S) : Completion α → Reply S
  | .returned a => answer a
  | .panicked p => .panicked p

/-- What is replied to the caller who is to be given an answer once an event is recorded. -/
def Counters.reply (c : Counters) (e : Event) (answer : Reply S) : Reply S := (c.told e answer).reply id

namespace Counters

variable {c : Counters} {e : Event} {answer : Reply S}

theorem reply_told {α : Type} (c : Counters) (e : Event) (a : α) (answer : α → Reply S) :
    (c.told e a).reply answer = c.reply e (answer a) := by
  unfold reply told
  split <;> rfl

theorem reply_of_fits (h : c.runsOver e = false) : c.reply e answer = answer := by
  unfold reply told
  rw [h]
  rfl

theorem reply_of_runsOver (h : c.runsOver e = true) : c.reply e answer = .panicked .overflow := by
  unfold reply told
  rw [h]
  rfl

end Counters

/-- A call and the world in which it is made. -/
structure Move (S : Scheme) where
  world : World S
  call : Call S

namespace Gateway

/-- A step on the settlement queue. -/
def onSettlement {α : Type} (f : Settlement S → α × Settlement S) : Step S α := fun g =>
  (.ok (f g.settlement).1, { g with settlement := (f g.settlement).2 })

end Gateway

/-- The operation that a call asks for. -/
def Call.op : Call S → Op S (Reply S)
  | .acceptSession v => Completion.reply .session <$> Gateway.acceptSession v
  | .topUp id v => (fun _ => .done) <$> Gateway.topUp id v
  | .acceptQuery session estimated => .query <$> Gateway.acceptQuery session estimated
  | .settleQuery id usage => Completion.reply .receipt <$> Gateway.settleQuery id usage
  | .abortQuery id => (fun _ => .done) <$> Gateway.abort id false
  | .closeSession id => (fun _ => .done) <$> Gateway.perform (Gateway.closeSession id)
  | .resumeClient client => .resumed <$> Gateway.perform (Gateway.resumeClient client)
  | .reap asOf => .reaped <$> Gateway.reap asOf
  | .beginBatch client => .batch <$> Gateway.perform (Gateway.onSettlement fun q => q.begin client)
  | .completeBatch client reference =>
    .completed <$> Gateway.perform (Gateway.onSettlement fun q => q.complete client reference)
  | .failBatch client => .failed <$> Gateway.perform (Gateway.onSettlement fun q => q.fail client)

namespace Gateway

/-- A gateway whose stores are empty. -/
def fresh (vendor : S.Party) (config : GatewayConfig) (metrics : Metrics) : Gateway S :=
  { vendor := vendor, config := config, metrics := metrics }

/-- A gateway in another world. -/
def inWorld (g : Gateway S) (w : World S) : Gateway S :=
  { g with
    vouchers := { g.vouchers with outage := w.vouchers }
    unmarked := { g.unmarked with outage := w.unmarked }
    balances := { g.balances with outage := w.balances }
    chain := w.chain }

/-- The outcome of a move, and the gateway after it. -/
def after (g : Gateway S) (m : Move S) : Except Error (Reply S) × Gateway S :=
  m.call.op.run (g.inWorld m.world)

/-- The gateway after a run. -/
def play (start : Gateway S) : List (Move S) → Gateway S
  | [] => start
  | m :: earlier => ((play start earlier).after m).2

end Gateway

/-! ## What a move writes -/

/-- The entries that a call permits. -/
def Call.Permits (config : GatewayConfig) : Call S → Entry S → Prop
  | .acceptSession v, e => e.Admits v ∨ ∃ time, e = .opened v.client v.nonce time
  | .topUp id v, e => e.Admits v ∨ ∃ time, e = .renewed id (some v.nonce) time
  | .acceptQuery session estimated, e => ∃ client, e.Reserves client session estimated
  | .settleQuery id usage, e => ∃ client, e.Settles client id (config.pricing.cost usage)
  | .abortQuery id, e => e.Aborts id false
  | .closeSession id, e => ∃ time, e = .closed id time
  | .resumeClient client, e => e = .resumed client
  | .reap asOf, e => e.Reaps asOf
  | .beginBatch client, e => ∃ c, e = .batched client c
  | .completeBatch client _, e => ∃ c, e = .batched client c
  | .failBatch client, e => ∃ c, e = .batched client c

/-- Entries that neither put a query on record, fix its cost or forget it, nor halt a client. -/
def Entry.Routine : Entry S → Prop
  | .reserved _ | .priced _ _ | .purged _ _ | .halted _ _ => False
  | _ => True

theorem Entry.Admits.routine {v : Voucher S} {e : Entry S} (h : e.Admits v) : e.Routine := by
  cases e with
  | reserved _ => cases h
  | priced _ _ => cases h
  | purged _ _ => cases h
  | halted _ _ => cases h
  | _ => trivial

/-- What each call permits besides routine. -/
theorem Call.Permits.cases {config : GatewayConfig} {call : Call S} {e : Entry S}
    (h : call.Permits config e) :
    e.Routine ∨ (∃ q session estimated, call = .acceptQuery session estimated ∧ e = .reserved q) ∨
      (∃ q usage, call = .settleQuery q.id usage ∧ e = .priced q (config.pricing.cost usage)) ∨
      ∃ asOf retention, call = .reap asOf ∧ e = .purged asOf retention := by
  cases call with
  | acceptSession v =>
    rcases h with h | ⟨_, rfl⟩
    · exact .inl h.routine
    · exact .inl trivial
  | topUp id v =>
    rcases h with h | ⟨_, rfl⟩
    · exact .inl h.routine
    · exact .inl trivial
  | acceptQuery session estimated =>
    obtain ⟨client, h⟩ := h
    cases e with
    | reserved q => exact .inr (.inl ⟨q, session, estimated, rfl, rfl⟩)
    | priced _ _ => cases h
    | purged _ _ => cases h
    | halted _ _ => cases h
    | _ => exact .inl trivial
  | settleQuery id usage =>
    obtain ⟨client, h⟩ := h
    cases e with
    | priced q cost =>
      obtain ⟨rfl, rfl⟩ := h
      exact .inr (.inr (.inl ⟨q, usage, rfl, rfl⟩))
    | reserved _ => cases h
    | purged _ _ => cases h
    | halted _ _ => cases h
    | _ => exact .inl trivial
  | abortQuery id =>
    cases e with
    | released _ => exact .inl trivial
    | aborted _ _ _ => exact .inl trivial
    | _ => cases h
  | closeSession id =>
    obtain ⟨_, rfl⟩ := h
    exact .inl trivial
  | resumeClient client =>
    obtain rfl := h
    exact .inl trivial
  | reap asOf =>
    cases e with
    | purged time retention =>
      obtain rfl := h
      exact .inr (.inr (.inr ⟨time, retention, rfl, rfl⟩))
    | priced _ _ => cases h
    | reserved _ => cases h
    | halted _ _ => cases h
    | _ => exact .inl trivial
  | beginBatch client =>
    obtain ⟨_, rfl⟩ := h
    exact .inl trivial
  | completeBatch client reference =>
    obtain ⟨_, rfl⟩ := h
    exact .inl trivial
  | failBatch client =>
    obtain ⟨_, rfl⟩ := h
    exact .inl trivial

/-- What a call leaves in the ledger: entries that it permits, and halts. -/
def Call.Leaves (config : GatewayConfig) (call : Call S) (e : Entry S) : Prop :=
  call.Permits config e ∨ ∃ client reason, e = .halted client reason

/-- Only a reservation puts a query on record. -/
theorem Call.Leaves.reserved {config : GatewayConfig} {call : Call S} {q : Query S}
    (h : call.Leaves config (.reserved q)) : ∃ session estimated, call = .acceptQuery session estimated := by
  rcases h with h | ⟨_, _, he⟩
  · rcases h.cases with h | ⟨_, session, estimated, hcall, -⟩ | ⟨_, _, _, he⟩ | ⟨_, _, _, he⟩
    · cases h
    · exact ⟨session, estimated, hcall⟩
    · cases he
    · cases he
  · cases he

/-- Only settling fixes the cost of a query, by the usage that it reports. -/
theorem Call.Leaves.priced {config : GatewayConfig} {call : Call S} {q : Query S} {cost : Atoms}
    (h : call.Leaves config (.priced q cost)) :
    ∃ usage, call = .settleQuery q.id usage ∧ cost = config.pricing.cost usage := by
  rcases h with h | ⟨_, _, he⟩
  · rcases h.cases with h | ⟨_, _, _, -, he⟩ | ⟨_, usage, hcall, he⟩ | ⟨_, _, -, he⟩
    · cases h
    · cases he
    · cases he
      exact ⟨usage, hcall, rfl⟩
    · cases he
  · cases he

/-- Entries that charge a query or settle it. -/
def Entry.Bills : Entry S → Prop
  | .charged _ _ | .settled _ _ _ => True
  | _ => False

theorem Entry.Admits.not_bills {v : Voucher S} {e : Entry S} (h : e.Admits v) : ¬ e.Bills := by
  cases e with
  | charged _ _ => cases h
  | settled _ _ _ => cases h
  | _ => exact id

/-- Only settling writes them. -/
theorem Call.Permits.of_bills {config : GatewayConfig} {call : Call S} {e : Entry S} (h : call.Permits config e)
    (he : e.Bills) : ∃ id usage, call = .settleQuery id usage := by
  cases call with
  | settleQuery id usage => exact ⟨id, usage, rfl⟩
  | acceptSession v =>
    rcases h with h | ⟨_, rfl⟩
    · exact absurd he h.not_bills
    · cases he
  | topUp id v =>
    rcases h with h | ⟨_, rfl⟩
    · exact absurd he h.not_bills
    · cases he
  | acceptQuery session estimated =>
    obtain ⟨_, h⟩ := h
    cases e with
    | charged _ _ => cases h
    | settled _ _ _ => cases h
    | _ => cases he
  | abortQuery id =>
    cases e with
    | charged _ _ => cases h
    | settled _ _ _ => cases h
    | _ => cases he
  | reap asOf =>
    cases e with
    | charged _ _ => cases h
    | settled _ _ _ => cases h
    | _ => cases he
  | resumeClient client =>
    obtain rfl := h
    cases he
  | _ =>
    obtain ⟨_, rfl⟩ := h
    cases he

/-- Only settling charges a query. -/
theorem Call.Leaves.charged {config : GatewayConfig} {call : Call S} {q : Query S} {cost : Atoms}
    (h : call.Leaves config (.charged q cost)) : ∃ usage, call = .settleQuery q.id usage := by
  rcases h with h | ⟨_, _, h⟩
  · obtain ⟨id, usage, rfl⟩ := h.of_bills trivial
    obtain ⟨_, hid⟩ := h
    exact ⟨usage, by rw [show q.id = id from hid]⟩
  · cases h

/-- Only a pass of the reaper forgets queries. -/
theorem Call.Leaves.keeps {config : GatewayConfig} {call : Call S} {e : Entry S} (h : call.Leaves config e)
    (hne : ∀ asOf, call ≠ .reap asOf) (x : Query S) : e.keeps x = true := by
  refine Entry.keeps_of_not_purged ?_ x
  rintro asOf retention rfl
  rcases h with h | ⟨_, _, he⟩
  · rcases h.cases with h | ⟨_, _, _, -, he⟩ | ⟨_, _, -, he⟩ | ⟨asOf, _, hcall, -⟩
    · cases h
    · cases he
    · cases he
    · exact hne asOf hcall
  · cases he

/-- Entries of a kind are written, and nothing is a contradiction. -/
def Writes.Clean {α : Type} (allowed : Entry S → Prop) (L : Ledger S)
    (r : Except Error α × Gateway S) : Prop :=
  Ledger.Trail allowed L r.2.ledger ∧ ∀ v, r.1 ≠ .error (.violation v)

theorem Writes.clean {α : Type} {allowed : Entry S → Prop} {L : Ledger S} {ok : α → Ledger S → Prop}
    {bad : Error → Ledger S → Prop} {r : Except Error α × Gateway S} (h : Writes allowed L ok bad r)
    (hbad : ∀ e M, bad e M → e.isFatal = false ∨ ∃ detail, e = .clientHalted detail) :
    Writes.Clean allowed L r := by
  rcases r with ⟨e | a, g⟩
  · refine ⟨h.1, ?_⟩
    rintro v ⟨⟩
    rcases hbad _ _ h.2 with hfatal | ⟨_, hhalted⟩
    · cases hfatal
    · cases hhalted
  · exact ⟨h.1, fun v hv => by cases hv⟩

theorem Op.run_map {α β : Type} (f : α → β) (op : Op S α) (g : Gateway S) :
    Op.run (f <$> op) g = ((op.run g).1.map f, (op.run g).2) := by
  rw [← bind_pure_comp, Op.run_bind]
  rcases op.run g with ⟨e | a, g'⟩ <;> rfl

/-- Renaming an answer changes nothing else. -/
theorem Op.ends_map {α β : Type} {ok : β → Gateway S → Prop} {bad : Error → Gateway S → Prop} {f : α → β}
    {op : Op S α} {g : Gateway S} (h : Ends (fun a => ok (f a)) bad (op.run g)) :
    Ends ok bad (Op.run (f <$> op) g) := by
  rw [run_map]
  rcases hr : op.run g with ⟨e | a, g'⟩ <;> rw [hr] at h <;> exact h

theorem Writes.Clean.map {α β : Type} {allowed : Entry S → Prop} {L : Ledger S} {op : Op S α}
    {g : Gateway S} (h : Writes.Clean allowed L (op.run g)) (f : α → β) :
    Writes.Clean allowed L (Op.run (f <$> op) g) := by
  rw [Op.run_map]
  refine ⟨h.1, ?_⟩
  intro v hv
  rcases hr : op.run g with ⟨e | a, g'⟩ <;> rw [hr] at hv h
  · obtain rfl := Except.error.inj hv
    exact h.2 v rfl
  · cases hv

namespace Gateway

theorem clean_onSettlement {α : Type} (client : S.Party) (f : Settlement S → α × Settlement S)
    (g : Gateway S) (hf : (f g.settlement).2 = g.settlement ∨
      ∃ c, c.handed = (g.settlement.of client).handed ∧ (f g.settlement).2 = g.settlement.put client c) :
    Writes.Clean (fun e => ∃ c, e = .batched client c) g.ledger ((onSettlement f).run g) := by
  refine ⟨?_, fun v hv => by cases hv⟩
  have hledger : ((onSettlement f).run g).2.ledger = { g.ledger with settlement := (f g.settlement).2 } := rfl
  rw [hledger]
  rcases hf with hsame | ⟨c, hc, hput⟩
  · rw [hsame]
    exact .refl
  · rw [hput]
    have ha : g.ledger.Allows (.batched client c) := hc
    exact .post ⟨c, rfl⟩ ha

/-- No call but a settlement can meet a contradiction. -/
theorem clean_of_ne_settle {call : Call S} (hne : ∀ id usage, call ≠ .settleQuery id usage) {g : Gateway S}
    (hL : g.ledger.Sound) : Writes.Clean (call.Permits g.config) g.ledger (call.op.run g) := by
  cases call with
  | acceptSession v =>
    have h : Writes ((Call.acceptSession v).Permits g.config) g.ledger _ _ ((acceptSession v).run g) :=
      writes_acceptSession (fun _ => .inl)
      (fun time => .inr ⟨time, rfl⟩) hL rfl
    exact (h.clean fun _ _ h => h).map _
  | topUp id v =>
    have h : Writes ((Call.topUp id v).Permits g.config) g.ledger _ _ ((topUp id v).run g) :=
      writes_topUp (fun _ => .inl)
      (fun time => .inr ⟨time, rfl⟩) hL rfl
    exact (h.clean fun _ _ h => h).map _
  | acceptQuery session estimated =>
    have h : Writes ((Call.acceptQuery session estimated).Permits g.config) g.ledger _ _
        ((acceptQuery session estimated).run g) :=
      writes_acceptQuery (fun client _ h => ⟨client, h⟩) hL rfl
    exact (h.clean fun _ _ h => h).map _
  | settleQuery id usage => exact absurd rfl (hne id usage)
  | abortQuery id =>
    have h : Writes ((Call.abortQuery id).Permits g.config) g.ledger _ _ ((abort id false).run g) :=
      writes_abort (fun _ h => h) hL rfl
    exact (h.clean fun _ _ h => h.2).map _
  | closeSession id =>
    have h : Writes ((Call.closeSession id).Permits g.config) g.ledger _ _ ((closeSession id).run g) :=
      writes_closeSession
      (fun time => ⟨time, rfl⟩) (rfl : g.ledger = _)
    exact (Writes.clean h fun _ _ h => .inl h).map _
  | resumeClient client =>
    have h : Writes.Clean ((Call.resumeClient client).Permits g.config) g.ledger
        ((resumeClient client).run g) :=
      ⟨.post (e := .resumed client) rfl trivial, fun v hv => by cases hv⟩
    exact h.map _
  | reap asOf =>
    have h : Writes ((Call.reap asOf).Permits g.config) g.ledger _ _ ((reap asOf).run g) :=
      writes_reap (fun _ h => h) hL rfl
    exact (h.clean fun _ _ h => h.elim).map _
  | beginBatch client =>
    have h := clean_onSettlement client (fun q => q.begin client) g (by
      unfold Settlement.begin
      split
      · next h => exact .inr ⟨_, ClientSettlement.handed_begin h, rfl⟩
      · exact .inl rfl)
    exact h.map _
  | completeBatch client reference =>
    have h := clean_onSettlement client (fun q => q.complete client reference) g (by
      unfold Settlement.complete
      split
      · next h => exact .inr ⟨_, ClientSettlement.handed_complete h, rfl⟩
      · exact .inl rfl)
    exact h.map _
  | failBatch client =>
    have h := clean_onSettlement client (fun q => q.fail client) g
      (.inr ⟨_, ClientSettlement.handed_fail, rfl⟩)
    exact h.map _

theorem run_settle (id : QueryId) (usage : Usage) (g : Gateway S) :
    (Call.settleQuery id usage).op.run g =
      (((settleQuery id usage).run g).1.map (Completion.reply .receipt), ((settleQuery id usage).run g).2) :=
  Op.run_map _ _ g

/-- What a move writes its call permits.  The only contradiction is a cost that does not fit, out of a
settlement; the client is halted for it. -/
theorem conduct (g : Gateway S) (m : Move S) (hL : g.ledger.Sound) :
    ∃ N, Ledger.Trail (m.call.Permits g.config) g.ledger N ∧
      ((g.after m).2.ledger = N ∧ (∀ v, (g.after m).1 ≠ .error (.violation v)) ∨
        ∃ client e, (∃ id usage, m.call = .settleQuery id usage) ∧ N.Overdrawn client e ∧
          (g.after m).1 = .error e ∧ (g.after m).2.ledger = N.post (.halted client e.message)) := by
  rcases m with ⟨w, call⟩
  -- settling alone can meet a fatal error
  by_cases hcall : ∃ id usage, call = .settleQuery id usage
  · obtain ⟨id, usage, rfl⟩ := hcall
    have h := ends_settleQuery (g := g.inWorld w) id usage hL rfl
    unfold after
    rw [run_settle]
    rcases hr : (settleQuery id usage).run (g.inWorld w) with ⟨e | answer, g'⟩ <;> rw [hr] at h
    · rcases h with ⟨hsame, detail, rfl⟩ | ⟨client, N, ht, -, ⟨hplain, hN⟩ | ⟨hover, hN⟩⟩
      · exact ⟨_, .refl, .inl ⟨hsame, fun v hv => by cases hv⟩⟩
      · refine ⟨N, ht.widen fun e he => ⟨client, he⟩, .inl ⟨hN, ?_⟩⟩
        rintro v ⟨⟩
        cases hplain
      · exact ⟨N, ht.widen fun e he => ⟨client, he⟩, .inr ⟨client, e, ⟨id, usage, rfl⟩, hover, rfl, hN⟩⟩
    · obtain ⟨⟨client, ht⟩, -⟩ := h
      exact ⟨_, ht.widen fun e he => ⟨client, he⟩, .inl ⟨rfl, fun v hv => by cases hv⟩⟩
  · have h := clean_of_ne_settle (g := g.inWorld w) (fun id usage h => hcall ⟨id, usage, h⟩) hL
    exact ⟨_, h.1, .inl ⟨rfl, h.2⟩⟩

/-- A settlement that is not refused leaves a query that has a cost or is finished. -/
theorem priced_after_settle (g : Gateway S) (w : World S) (id : QueryId) (usage : Usage)
    (hL : g.ledger.Sound) :
    ((∃ detail, (g.after ⟨w, .settleQuery id usage⟩).1 = .error (.clientHalted detail)) ∧
        (g.after ⟨w, .settleQuery id usage⟩).2.ledger = g.ledger) ∨
      (∀ detail, (g.after ⟨w, .settleQuery id usage⟩).1 ≠ .error (.clientHalted detail)) ∧
        (g.after ⟨w, .settleQuery id usage⟩).2.ledger.Priced id := by
  have h := ends_settleQuery (g := g.inWorld w) id usage hL rfl
  unfold after
  rw [run_settle]
  rcases hr : (settleQuery id usage).run (g.inWorld w) with ⟨e | answer, g'⟩ <;> rw [hr] at h
  · rcases h with ⟨hsame, detail, rfl⟩ | ⟨client, N, ht, hpriced, ⟨hplain, hN⟩ | ⟨hover, hN⟩⟩
    · exact .inl ⟨⟨detail, rfl⟩, hsame⟩
    · refine .inr ⟨?_, hN ▸ hpriced⟩
      rintro detail ⟨⟩
      cases hplain
    · refine .inr ⟨?_, hN ▸ hpriced⟩
      rintro detail ⟨⟩
      obtain ⟨_, _, _, _, _, _, _, he⟩ := hover
      cases he
  · exact .inr ⟨fun detail hd => (by cases hd), h.2.1⟩

/-! ## One move, as a trail -/

section Move

variable {g : Gateway S} {m : Move S}

theorem trail_after (m : Move S) (hL : g.ledger.Sound) :
    Ledger.Trail (m.call.Leaves g.config) g.ledger (g.after m).2.ledger := by
  obtain ⟨N, ht, ⟨hN, -⟩ | ⟨client, e, -, -, -, hN⟩⟩ := conduct g m hL
  · rw [hN]
    exact ht.widen fun _ => .inl
  · have hal : m.call.Leaves g.config (.halted client e.message) := .inr ⟨client, e.message, rfl⟩
    have ha : N.Allows (.halted client e.message) := trivial
    rw [hN]
    exact (ht.widen fun _ => .inl).tail ⟨_, hal, ha, rfl⟩

theorem trail_after_reap (hL : g.ledger.Sound) {asOf : Nat} (hcall : m.call = .reap asOf) :
    Ledger.Trail (Entry.Reaps asOf) g.ledger (g.after m).2.ledger := by
  obtain ⟨N, ht, ⟨hN, -⟩ | ⟨client, e, ⟨id, usage, hsettle⟩, -⟩⟩ := conduct g m hL
  · rw [hcall] at ht
    exact hN ▸ ht
  · rw [hcall] at hsettle
    cases hsettle

theorem sound_after (m : Move S) (hL : g.ledger.Sound) : (g.after m).2.ledger.Sound :=
  hL.trail (trail_after m hL)

theorem config_after (m : Move S) (hL : g.ledger.Sound) : (g.after m).2.config = g.config :=
  Ledger.Trail.config (trail_after m hL)

theorem vendor_after (m : Move S) (hL : g.ledger.Sound) : (g.after m).2.vendor = g.vendor :=
  Ledger.Trail.vendor (trail_after m hL)

/-- Whatever comes after a sound ledger is sound. -/
theorem sound_later (hL : g.ledger.Sound) (later : List (Move S)) : (g.play later).ledger.Sound := by
  induction later with
  | nil => exact hL
  | cons m earlier ih => exact sound_after m ih

/-- The settings stay. -/
theorem config_later (hL : g.ledger.Sound) (later : List (Move S)) : (g.play later).config = g.config := by
  induction later with
  | nil => rfl
  | cons m earlier ih => exact (config_after m (sound_later hL earlier)).trans ih

end Move

/-! ## Runs from the beginning -/

/-- A gateway at the beginning of a run. -/
structure Blank (g : Gateway S) : Prop where
  sound : g.ledger.Sound
  rows : g.queries.rows = []
  books : ∀ c, g.ledger.books c = 0
  running : ∀ c, g.ledger.halted.get? c = none
  calm : ∀ c, g.ledger.Calm c

theorem Blank.lockedOf {g : Gateway S} (h : g.Blank) (c : S.Party) : (g.ledger.lockedOf c).toNat = 0 := by
  have hrows : g.ledger.queries.rows = [] := h.rows
  rw [h.sound.locked c, hrows, List.map_nil, List.sum_nil]

theorem blank_fresh (vendor : S.Party) (config : GatewayConfig) (metrics : Metrics) :
    (fresh vendor config metrics).Blank where
  sound := {
    honest := rfl
    numbered := ⟨List.nodup_nil, fun _ h => by cases h⟩
    rows := fun _ h => by cases h
    nonces := fun _ => rfl
    parties := fun _ _ h => by cases h
    handed := fun _ => List.prefix_rfl
    spent := fun _ => rfl
    covered := fun _ _ h => by cases h
    serves := fun _ _ _ h => by cases h
    locked := fun _ => rfl }
  rows := rfl
  books := fun _ => rfl
  running := fun _ => rfl
  calm := fun _ => ⟨rfl, nofun⟩

section Run

variable {start : Gateway S}

theorem sound_play (hstart : start.Blank) (ms : List (Move S)) : (start.play ms).ledger.Sound :=
  sound_later hstart.sound ms

theorem config_play (hstart : start.Blank) (ms : List (Move S)) : (start.play ms).config = start.config :=
  config_later hstart.sound ms

theorem vendor_play (hstart : start.Blank) (ms : List (Move S)) : (start.play ms).vendor = start.vendor := by
  induction ms with
  | nil => rfl
  | cons m earlier ih => exact (vendor_after m (sound_play hstart earlier)).trans ih

theorem not_mem_nil (hstart : start.Blank) (q : Query S) : q ∉ (start.play []).queries.rows := by
  have hrows : (start.play []).queries.rows = [] := hstart.rows
  rw [hrows]
  exact List.not_mem_nil

end Run
end Gateway

/-! ## A small run -/

deriving instance DecidableEq for Receipt

instance [DecidableEq S.Signature] : DecidableEq (Voucher S) := fun v w =>
  decidable_of_iff (v.client = w.client ∧ v.vendor = w.vendor ∧ v.nonce = w.nonce ∧ v.atoms = w.atoms ∧
    v.signature = w.signature) (by cases v; cases w; simp)

/-- The error that an operation ends with. -/
def failure? {α : Type} : Except Error α → Option Error
  | .error e => some e
  | .ok _ => none

theorem eq_of_failure? {α : Type} {outcome : Except Error α} {e : Error} (h : failure? outcome = some e) :
    outcome = .error e := by
  cases outcome with
  | error e' => rw [Option.some.inj h]
  | ok a => cases h

/-- The receipt that an operation answers. -/
def receipt? : Except Error (Reply S) → Option (Receipt S)
  | .ok (.receipt receipt) => some receipt
  | _ => none

theorem eq_of_receipt? {outcome : Except Error (Reply S)} {receipt : Receipt S}
    (h : receipt? outcome = some receipt) : outcome = .ok (.receipt receipt) := by
  unfold receipt? at h
  split at h
  · rw [Option.some.inj h]
  · cases h

/-- The panic that an operation ends with once it is done. -/
def panic? : Except Error (Reply S) → Option Panic
  | .ok (.panicked p) => some p
  | _ => none

theorem eq_of_panic? {outcome : Except Error (Reply S)} {p : Panic} (h : panic? outcome = some p) :
    outcome = .ok (.panicked p) := by
  unfold panic? at h
  split at h
  · rw [Option.some.inj h]
  · cases h

namespace Sample

/-- A thousand atoms for an hour, and fractions are dropped. -/
def config : GatewayConfig where
  credit := { expandRiskFactor := 0 }
  pricing := { hourPrice := 1000, rounding := .down }

/-- An atom for each millisecond. -/
def perMillisecond : GatewayConfig := { config with pricing := { hourPrice := 3600000, rounding := .down } }

/-- The client 1 stands well with its only vendor. -/
def world : World Scheme.plain :=
  .answering ⟨[(1, { collateral := 1000, subscribedVendorCount := 1, subscribed := true })]⟩

/-- A gateway of the vendor 9, before its first call. -/
def start : Gateway Scheme.plain := .fresh (S := Scheme.plain) 9 config {}

/-- The first voucher of the client, over a hundred atoms. -/
def voucher : Voucher Scheme.plain := ⟨1, 9, 1, 100, true⟩

/-- The client opens a session, and reserves a query in it. -/
def reserving (estimated : Atoms) : List (Move Scheme.plain) :=
  [⟨world, .acceptQuery ⟨1⟩ estimated⟩, ⟨world, .acceptSession voucher⟩]

/-- Two queries are reserved, and the first one is settled for the largest amount, at an atom a millisecond. -/
def filling : List (Move Scheme.plain) :=
  [⟨world, .settleQuery ⟨1⟩ ⟨18446744073709551615, 0⟩⟩, ⟨world, .acceptQuery ⟨1⟩ 50⟩] ++ reserving 50

/-- The world while the next call of a kind to the store of unmarked cost fails. -/
def unmarkedFailing (kind : CostCall) : World Scheme.plain :=
  { world with unmarked := world.unmarked.plan kind (.next 1) }

/-- The world while the next call of a kind to the voucher store fails. -/
def vouchersFailing (kind : VoucherCall) : World Scheme.plain :=
  { world with vouchers := world.vouchers.plan kind (.next 1) }

end Sample
end VoucherGateway
