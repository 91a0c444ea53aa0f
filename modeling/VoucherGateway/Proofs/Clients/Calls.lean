import VoucherGateway.Proofs.Clients.Queries

/-!
# Calls of one client — answered alike by two gateways abreast

Every call but a pass of the reaper concerns one client, its *subject*: the client of the voucher, the session
or the query that it is about.  Main statement: two gateways abreast answer a call of their client alike, and
stand abreast afterwards (`echo_call`).  With one gateway on both sides this says that a call leaves the
accounts of all other clients alone (`since_call`).
-/

namespace VoucherGateway

variable {S : Scheme} {α : Type}

open Gateway

namespace Pairing

variable {σ : Pairing S} {early : Prop} {g g' : Gateway S}

/-! ## Closing, resuming and settling downstream -/

theorem Abreast.hasLockedIn (h : σ.Abreast early g g') {id : SessionId} (hid : σ.OwnsSession id) :
    g'.queries.hasLockedIn (σ.numbers.session id) = g.queries.hasLockedIn id := by
  refine h.matched.hasLockedIn ?_ ?_
  · rintro q hq rfl
    rw [← (h.left.tidy.placed q hq).2, hid.left]
    exact σ.watches
  · intro q hq hqid
    rw [← (h.right.tidy.placed q hq).2, hqid, hid.right]
    exact σ.watches

theorem echoes_closeIdle (asOf : Nat) {id : SessionId} (hid : σ.OwnsSession id) :
    σ.EchoesOp True Eq (closeIdle asOf id) (closeIdle asOf (σ.numbers.session id)) := by
  refine .get_bind fun g g' h => ?_
  rw [h.find?_session hid]
  cases hs : g.sessions.find? id with
  | none => exact .pure rfl
  | some s =>
    obtain ⟨hmem, rfl⟩ := SessionTable.mem_of_find? hs
    have hclient : s.client = σ.client := (h.left.tidy.sessions s hmem).symm.trans hid.left
    have hclient' : (s.rename σ.numbers).client = s.client := rfl
    dsimp only [Option.map_some]
    rw [hclient', hclient]
    refine (Op.Echo.attempt echoes_enter).bind ?_
    rintro _ _ (_ | _)
    · refine .get_bind fun k k' hk => ?_
      have hidle : (k'.sessions.find? (σ.numbers.session s.id)).any
          (·.isIdle asOf k'.config.engine.sessionIdleTimeout) =
          (k.sessions.find? s.id).any (·.isIdle asOf k.config.engine.sessionIdleTimeout) := by
        rw [hk.find?_session hid, hk.config]
        cases k.sessions.find? s.id <;> rfl
      rw [hidle, hk.hasLockedIn hid]
      have hclosed := hk.updateSession hid (f := fun s => { s with closedAt := some asOf }) (fun _ => ⟨rfl, rfl⟩)
        fun _ => rfl
      exact .ite (.set_bind hclosed (.pure rfl)) (.pure rfl)
    · exact .pure rfl

theorem echoes_resumeClient : σ.Echoes early Eq (resumeClient σ.client) (resumeClient σ.client) := by
  intro g g' h
  have hhalted : g'.gate.isHalted σ.client = g.gate.isHalted σ.client := by
    unfold Gate.isHalted
    rw [h.haltReason?]
  exact ⟨.ok hhalted.symm, h.setHalt none⟩

/-- A step on the settlement queue that asks for one client's spent vouchers and may replace them. -/
theorem echoes_onSettlement {f : Settlement S → α × Settlement S}
    (F : ClientSettlement S → α × Option (ClientSettlement S))
    (hf : ∀ q, f q = ((F (q.of σ.client)).1, ((F (q.of σ.client)).2.map (q.put σ.client)).getD q)) :
    σ.Echoes early Eq (onSettlement f) (onSettlement f) := by
  intro g g' h
  unfold onSettlement Action.run
  dsimp only
  rw [hf, hf, h.settlement]
  cases (F (g.settlement.of σ.client)).2 with
  | none => exact ⟨.ok rfl, h⟩
  | some c => exact ⟨.ok rfl, h.putSettlement c⟩

theorem echoes_beginBatch : σ.Echoes early Eq (onSettlement fun q => q.begin σ.client)
    (onSettlement fun q => q.begin σ.client) := by
  refine echoes_onSettlement (fun c => (c.begin?.map (·.1), c.begin?.map (·.2))) fun q => ?_
  unfold Settlement.begin
  rcases (q.of σ.client).begin? with _ | ⟨batch, c⟩ <;> rfl

theorem echoes_completeBatch (reference : String) :
    σ.Echoes early Eq (onSettlement fun q => q.complete σ.client reference)
      (onSettlement fun q => q.complete σ.client reference) := by
  refine echoes_onSettlement
    (fun c => ((c.complete? reference).map (·.1), (c.complete? reference).map (·.2))) fun q => ?_
  unfold Settlement.complete
  rcases (q.of σ.client).complete? reference with _ | ⟨count, c⟩ <;> rfl

theorem echoes_failBatch : σ.Echoes early Eq (onSettlement fun q => q.fail σ.client)
    (onSettlement fun q => q.fail σ.client) :=
  echoes_onSettlement (fun c => (c.fail.1, some c.fail.2)) fun _ => rfl

/-! ## What a call is about -/

theorem mem_right_of_session {s : Session S} (hs : s ∈ σ.left.ledger.sessions.rows) (hc : s.client = σ.client) :
    s.rename σ.numbers ∈ σ.right.ledger.sessions.rows := by
  have hmem : s.rename σ.numbers ∈ σ.right.ledger.sessions.rows.filter fun s => σ.watched s.client := by
    rw [σ.matched.sessions]
    exact List.mem_map_of_mem (List.mem_filter.2 ⟨hs, hc ▸ σ.watches⟩)
  exact (List.mem_filter.1 hmem).1

theorem mem_right_of_query {q : Query S} (hq : q ∈ σ.left.ledger.queries.rows) (hc : q.client = σ.client) :
    q.rename σ.numbers ∈ σ.right.ledger.queries.rows := by
  have hmem : q.rename σ.numbers ∈ σ.right.ledger.queries.rows.filter fun q => σ.watched q.client := by
    rw [σ.matched.queries]
    exact List.mem_map_of_mem (List.mem_filter.2 ⟨hq, hc ▸ σ.watches⟩)
  exact (List.mem_filter.1 hmem).1

theorem ownsSession {s : Session S} (hs : s ∈ σ.left.ledger.sessions.rows) (hc : s.client = σ.client) :
    σ.OwnsSession s.id where
  left := (σ.left.tidy.sessions s hs).trans hc
  right := (σ.right.tidy.sessions _ (mem_right_of_session hs hc)).trans hc
  issued_left := σ.left.tidy.below s hs
  issued_right := σ.right.tidy.below _ (mem_right_of_session hs hc)

theorem ownsQuery {q : Query S} (hq : q ∈ σ.left.ledger.queries.rows) (hc : q.client = σ.client) :
    σ.OwnsQuery q.id where
  left := (σ.left.tidy.queries q hq).trans hc
  right := (σ.right.tidy.queries _ (mem_right_of_query hq hc)).trans hc
  issued_left := σ.left.tidy.numbered.below q hq
  issued_right := σ.right.tidy.numbered.below _ (mem_right_of_query hq hc)

end Pairing

namespace Ledger

/-- The client that a call is about, if there is one. -/
def subject? (L : Ledger S) : Call S → Option S.Party
  | .acceptSession v => some v.client
  | .topUp id _ | .acceptQuery id _ | .closeSession id => (L.sessions.find? id).map (·.client)
  | .settleQuery id _ | .abortQuery id => (L.queries.find? id).map (·.client)
  | .resumeClient client | .beginBatch client | .completeBatch client _ | .failBatch client => some client
  | .reap _ => none

/-- The clients that a call is addressed to: its voucher, its session or its query is theirs. -/
def addressees (L : Ledger S) : Call S → List S.Party
  | .acceptSession v => [v.client]
  | .topUp id v => v.client :: ((L.sessions.find? id).map (·.client)).toList
  | .acceptQuery id _ | .closeSession id => ((L.sessions.find? id).map (·.client)).toList
  | .settleQuery id _ | .abortQuery id => ((L.queries.find? id).map (·.client)).toList
  | .resumeClient client | .beginBatch client | .completeBatch client _ | .failBatch client => [client]
  | .reap _ => []

/-- Whom a call is about it is addressed to. -/
theorem subject_mem_addressees {L : Ledger S} {call : Call S} {c : S.Party} (h : L.subject? call = some c) :
    c ∈ L.addressees call := by
  cases call with
  | acceptSession v => exact List.mem_singleton.2 (Option.some.inj h).symm
  | topUp id v => exact List.mem_cons_of_mem _ (Option.mem_toList.2 h)
  | reap asOf => cases h
  | resumeClient client => exact List.mem_singleton.2 (Option.some.inj h).symm
  | beginBatch client => exact List.mem_singleton.2 (Option.some.inj h).symm
  | completeBatch client reference => exact List.mem_singleton.2 (Option.some.inj h).symm
  | failBatch client => exact List.mem_singleton.2 (Option.some.inj h).symm
  | _ => exact Option.mem_toList.2 h

/-- A call is addressed to nobody but whom it is about, or else a voucher is used for a session of somebody
else's. -/
theorem subject_of_mem_addressees {L : Ledger S} {call : Call S} {c : S.Party} (h : c ∈ L.addressees call) :
    L.subject? call = some c ∨ ∃ id v, call = .topUp id v ∧ v.client = c := by
  cases call with
  | acceptSession v => exact .inl (congrArg some (List.mem_singleton.1 h).symm)
  | topUp id v =>
    rcases List.mem_cons.1 h with rfl | h
    · exact .inr ⟨id, v, rfl, rfl⟩
    · exact .inl (Option.mem_toList.1 h)
  | reap asOf => cases h
  | resumeClient client => exact .inl (congrArg some (List.mem_singleton.1 h).symm)
  | beginBatch client => exact .inl (congrArg some (List.mem_singleton.1 h).symm)
  | completeBatch client reference => exact .inl (congrArg some (List.mem_singleton.1 h).symm)
  | failBatch client => exact .inl (congrArg some (List.mem_singleton.1 h).symm)
  | _ => exact .inl (Option.mem_toList.1 h)

theorem mem_of_session_subject {L : Ledger S} {id : SessionId} {c : S.Party}
    (h : (L.sessions.find? id).map (·.client) = some c) : ∃ s ∈ L.sessions.rows, s.id = id ∧ s.client = c := by
  obtain ⟨s, hs, rfl⟩ := Option.map_eq_some_iff.1 h
  obtain ⟨hmem, hid⟩ := SessionTable.mem_of_find? hs
  exact ⟨s, hmem, hid, rfl⟩

theorem mem_of_query_subject {L : Ledger S} {id : QueryId} {c : S.Party}
    (h : (L.queries.find? id).map (·.client) = some c) : ∃ q ∈ L.queries.rows, q.id = id ∧ q.client = c := by
  obtain ⟨q, hq, rfl⟩ := Option.map_eq_some_iff.1 h
  obtain ⟨hmem, hid⟩ := QueryTable.mem_of_find? hq
  exact ⟨q, hmem, hid, rfl⟩

end Ledger

namespace Pairing

variable {σ : Pairing S}

/-- A new number that a call may use up is the client's, on both sides. -/
def Expects (σ : Pairing S) : Call S → Prop
  | .acceptSession _ => σ.ExpectsSession
  | .acceptQuery _ _ => σ.ExpectsQuery
  | _ => True

/-- The numbers given out up to a state are the same on both sides. -/
structure Agrees (σ : Pairing S) (k : Gateway S) : Prop where
  query : σ.left.ledger.queries.next < k.queries.next → σ.SameQuery
  session : σ.left.ledger.sessions.next < k.sessions.next → σ.SameSession

/-- Answers with new numbers are the same if the numbers are. -/
theorem endAlike_map {op op' : Op S α} {f : α → Reply S} {ok : α → Gateway S → α → Gateway S → Prop}
    {V : Reply S → Reply S → Prop} {g g' : Gateway S}
    (h : EndAlike σ.numbers ok (σ.Abreast False) (op.run g) (op'.run g'))
    (hok : ∀ a k a' k', ok a k a' k' → σ.Agrees k → V (f a) (f a') ∧ σ.Abreast False k k')
    (hagrees : σ.Agrees (Op.run (f <$> op) g).2) :
    SameOutcome σ.numbers V (Op.run (f <$> op) g).1 (Op.run (f <$> op') g').1 ∧
      σ.Abreast False (Op.run (f <$> op) g).2 (Op.run (f <$> op') g').2 := by
  rw [Op.run_map] at hagrees
  rw [Op.run_map, Op.run_map]
  rcases hr : op.run g with ⟨e | a, k⟩ <;> rcases hr' : op'.run g' with ⟨e' | a', k'⟩ <;>
    rw [hr, hr'] at h <;> rw [hr] at hagrees <;> cases h
  · next he hk => exact ⟨.error he, hk⟩
  · next ha =>
    obtain ⟨hanswer, hk⟩ := hok a k a' k' ha hagrees
    exact ⟨.ok hanswer, hk⟩

/-- Two gateways abreast answer a call of their client alike, unless their counters panic, and stand abreast
afterwards in any case. -/
theorem echo_call {call : Call S} (hs : σ.left.ledger.subject? call = some σ.client) (hnext : σ.Expects call)
    {g g' : Gateway S} (h : σ.Abreast True g g') (hagrees : σ.Agrees (call.op.run g).2) :
    SameOutcome σ.numbers (Reply.Same σ.numbers g.metrics.counters g'.metrics.counters) (call.op.run g).1
        ((call.rename σ.numbers).op.run g').1 ∧
      σ.Abreast False (call.op.run g).2 ((call.rename σ.numbers).op.run g').2 := by
  -- calls that give no numbers out echo each other whatever the numbers are
  have echoed : ∀ {α : Type} {late : Prop} {V : α → α → Prop} {op op' : Op S α} {f f' : α → Reply S},
      Op.Echo σ.numbers (σ.Abreast True) (σ.Abreast late) V op op' →
      (∀ a a', V a a' → f' a' = (f a).rename σ.numbers) →
      SameOutcome σ.numbers (Reply.Same σ.numbers g.metrics.counters g'.metrics.counters) (Op.run (f <$> op) g).1
          (Op.run (f' <$> op') g').1 ∧
        σ.Abreast False (Op.run (f <$> op) g).2 (Op.run (f' <$> op') g').2 := by
    intro α late V op op' f f' hecho hf
    exact ((hecho.map hf).mono (fun _ _ hk => hk.late) fun _ _ => .of_eq) g g' h
  cases call with
  | acceptSession v =>
    refine endAlike_map (endAlike_acceptSession (Option.some.inj hs) hnext h) ?_ hagrees
    intro id k id' k' hopened hagrees
    have hsame := hagrees.session hopened.given
    refine ⟨?_, hopened.abreast hsame⟩
    rw [hopened.left, hopened.right, ← hsame, Counters.reply_told, Counters.reply_told]
    exact .recorded rfl
  | acceptQuery session estimated =>
    obtain ⟨s, hmem, rfl, hc⟩ := Ledger.mem_of_session_subject hs
    refine endAlike_map (endAlike_acceptQuery (ownsSession hmem hc) hnext estimated h) ?_ hagrees
    intro id k id' k' hreserved hagrees
    have hsame := hagrees.query hreserved.given
    refine ⟨?_, hreserved.abreast hsame⟩
    rw [hreserved.left, hreserved.right, ← hsame]
    exact .of_eq rfl
  | topUp id v =>
    obtain ⟨s, hmem, rfl, hc⟩ := Ledger.mem_of_session_subject hs
    exact echoed (echoes_topUp (ownsSession hmem hc) v) fun _ _ _ => rfl
  | settleQuery id usage =>
    obtain ⟨q, hmem, rfl, hc⟩ := Ledger.mem_of_query_subject hs
    have hat : σ.AbreastAt True g.metrics.counters g'.metrics.counters g g' := ⟨h, rfl, rfl⟩
    refine (echo_settleQuery (ownsQuery hmem hc) usage _ _).map ?_ g g' hat
    rintro _ _ (⟨receipt⟩ | ⟨receipt⟩)
    · exact .answered (.receipt receipt)
    · rw [Counters.reply_told, Counters.reply_told]
      exact .recorded rfl
  | abortQuery id =>
    obtain ⟨q, hmem, rfl, hc⟩ := Ledger.mem_of_query_subject hs
    exact echoed (echo_abort (ownsQuery hmem hc) false) fun _ _ _ => rfl
  | closeSession id =>
    obtain ⟨s, hmem, rfl, hc⟩ := Ledger.mem_of_session_subject hs
    exact echoed (echoes_closeSession (ownsSession hmem hc)).perform fun _ _ _ => rfl
  | resumeClient client =>
    obtain rfl := Option.some.inj hs
    exact echoed echoes_resumeClient.perform (by rintro halted _ rfl; rfl)
  | reap asOf => cases hs
  | beginBatch client =>
    obtain rfl := Option.some.inj hs
    exact echoed echoes_beginBatch.perform (by rintro batch _ rfl; rfl)
  | completeBatch client reference =>
    obtain rfl := Option.some.inj hs
    exact echoed (echoes_completeBatch reference).perform (by rintro count _ rfl; rfl)
  | failBatch client =>
    obtain rfl := Option.some.inj hs
    exact echoed echoes_failBatch.perform (by rintro begun _ rfl; rfl)

end Pairing

/-! ## Calls about nothing on record -/

theorem Op.run_findOpenSession_bind (id : SessionId) (next : Session S → Op S α) (g : Gateway S) :
    Op.run (perform (findOpenSession id) >>= next) g =
      match g.sessions.find? id with
      | none => (.error (.unknownSession id.text), g)
      | some s => if s.isOpen then (next s).run g else (.error (.sessionClosed id.text), g) := by
  rw [Op.run_bind, Op.run_perform, run_findOpenSession]
  cases g.sessions.find? id with
  | none => rfl
  | some s =>
    dsimp only
    by_cases hopen : s.isOpen = true
    · rw [if_pos hopen, if_pos hopen]
    · rw [if_neg hopen, if_neg hopen]

theorem Op.run_findQuery_bind (id : QueryId) (next : Query S → Op S α) (g : Gateway S) :
    Op.run (perform (findQuery id) >>= next) g =
      match g.queries.find? id with
      | none => (.error (.unknownQuery id.text), g)
      | some q => (next q).run g := by
  rw [Op.run_bind, Op.run_perform]
  unfold findQuery
  rw [Action.run_get_bind]
  cases g.queries.find? id <;> rfl

namespace Call

/-- The error for a call about a session or a query that is not on record. -/
inductive Stray : Call S → Error → Prop
  | topUp (id : SessionId) (v : Voucher S) : Stray (.topUp id v) (.unknownSession id.text)
  | acceptQuery (id : SessionId) (estimated : Atoms) : Stray (.acceptQuery id estimated) (.unknownSession id.text)
  | closeSession (id : SessionId) : Stray (.closeSession id) (.unknownSession id.text)
  | settleQuery (id : QueryId) (usage : Usage) : Stray (.settleQuery id usage) (.unknownQuery id.text)
  | abortQuery (id : QueryId) : Stray (.abortQuery id) (.unknownQuery id.text)

variable {call : Call S} {e : Error} {g : Gateway S}

/-- Nothing happens then. -/
theorem Stray.run (h : call.Stray e) (hg : g.ledger.subject? call = none) : call.op.run g = (.error e, g) := by
  cases h with
  | topUp id v =>
    have hs : g.sessions.find? id = none := Option.map_eq_none_iff.1 hg
    refine (Op.run_map _ _ g).trans ?_
    rw [Gateway.topUp, Op.run_findOpenSession_bind, hs]
    rfl
  | acceptQuery id estimated =>
    have hs : g.sessions.find? id = none := Option.map_eq_none_iff.1 hg
    refine (Op.run_map _ _ g).trans ?_
    rw [Gateway.acceptQuery, Op.run_findOpenSession_bind, hs]
    rfl
  | closeSession id =>
    have hs : g.sessions.find? id = none := Option.map_eq_none_iff.1 hg
    refine (Op.run_map _ _ g).trans ?_
    unfold Gateway.closeSession
    rw [Op.run_perform, Action.run_get_bind, hs]
    rfl
  | settleQuery id usage =>
    have hs : g.queries.find? id = none := Option.map_eq_none_iff.1 hg
    refine (Op.run_map _ _ g).trans ?_
    rw [Gateway.settleQuery, Op.run_findQuery_bind, hs]
    rfl
  | abortQuery id =>
    have hs : g.queries.find? id = none := Option.map_eq_none_iff.1 hg
    refine (Op.run_map _ _ g).trans ?_
    rw [Gateway.abort, Op.run_findQuery_bind, hs]
    rfl

/-- A call about nothing on record is one under any numbers. -/
theorem stray_of_subject {L : Ledger S} (h : L.subject? call = none) (hreap : ∀ asOf, call ≠ .reap asOf) :
    ∃ e, call.Stray e ∧ ∀ ρ : Renaming, ∃ e', e.Alias ρ e' ∧ (call.rename ρ).Stray e' := by
  cases call with
  | topUp id v => exact ⟨_, .topUp id v, fun ρ => ⟨_, .unknownSession id, .topUp (ρ.session id) v⟩⟩
  | acceptQuery id estimated =>
    exact ⟨_, .acceptQuery id estimated, fun ρ => ⟨_, .unknownSession id, .acceptQuery (ρ.session id) estimated⟩⟩
  | closeSession id => exact ⟨_, .closeSession id, fun ρ => ⟨_, .unknownSession id, .closeSession (ρ.session id)⟩⟩
  | settleQuery id usage =>
    exact ⟨_, .settleQuery id usage, fun ρ => ⟨_, .unknownQuery id, .settleQuery (ρ.query id) usage⟩⟩
  | abortQuery id => exact ⟨_, .abortQuery id, fun ρ => ⟨_, .unknownQuery id, .abortQuery (ρ.query id)⟩⟩
  | reap asOf => exact absurd rfl (hreap asOf)
  | _ => cases h

end Call

/-! ## One gateway alone -/

namespace Ledger

/-- The owners, if the next numbers go to a client. -/
def awaiting (L : Ledger S) (owners : Owners S) (client : S.Party) : Owners S where
  query := Function.update owners.query ⟨L.queries.next⟩ client
  session := Function.update owners.session ⟨L.sessions.next⟩ client

theorem Tidy.awaiting {L : Ledger S} {owners : Owners S} (h : L.Tidy owners) (client : S.Party) :
    L.Tidy (L.awaiting owners client) := by
  have query : ∀ {id : QueryId}, id.number < L.queries.next →
      (L.awaiting owners client).query id = owners.query id := by
    intro id hid
    have hne : id ≠ ⟨L.queries.next⟩ := by
      rintro rfl
      exact Nat.lt_irrefl _ hid
    simp [Ledger.awaiting, hne]
  have session : ∀ {id : SessionId}, id.number < L.sessions.next →
      (L.awaiting owners client).session id = owners.session id := by
    intro id hid
    have hne : id ≠ ⟨L.sessions.next⟩ := by
      rintro rfl
      exact Nat.lt_irrefl _ hid
    simp [Ledger.awaiting, hne]
  refine { h with pending := ?_, queries := ?_, placed := ?_, sessions := ?_ }
  · intro c p hp
    obtain ⟨hclient, hquery⟩ := h.pending c p hp
    exact ⟨hclient, fun id hid => ⟨(hquery id hid).1, (query (hquery id hid).1).trans (hquery id hid).2⟩⟩
  · intro q hq
    exact (query (h.numbered.below q hq)).trans (h.queries q hq)
  · intro q hq
    exact ⟨(h.placed q hq).1, (session (h.placed q hq).1).trans (h.placed q hq).2⟩
  · intro s hs
    exact (session (h.below s hs)).trans (h.sessions s hs)

end Ledger

namespace Pairing

/-- The numbers that a call may use up go to the client whom they are awaited for. -/
theorem expects_of_awaiting {σ : Pairing S} {owners owners' : Owners S} (call : Call S)
    (hleft : σ.left.owners = σ.left.ledger.awaiting owners σ.client)
    (hright : σ.right.owners = σ.right.ledger.awaiting owners' σ.client) : σ.Expects call := by
  have hquery : σ.ExpectsQuery := ⟨by simp [hleft, Ledger.awaiting], by simp [hright, Ledger.awaiting]⟩
  have hsession : σ.ExpectsSession := ⟨by simp [hleft, Ledger.awaiting], by simp [hright, Ledger.awaiting]⟩
  cases call with
  | acceptSession v => exact hsession
  | acceptQuery session estimated => exact hquery
  | _ => trivial

end Pairing

namespace Side

/-- A gateway, paired with itself. -/
def doubled (side : Side S) (client : S.Party) : Pairing S where
  client := client
  watched _ := true
  watches := rfl
  numbers := .refl
  left := side
  right := side
  matched := .refl _ _
  worlds := .refl _
  terms := rfl

theorem agrees_doubled (side : Side S) (client : S.Party) (k : Gateway S) : (side.doubled client).Agrees k :=
  ⟨fun _ => rfl, fun _ => rfl⟩

end Side

/-- A gateway that is about to be called. -/
def Gateway.side (g : Gateway S) (owners : Owners S) (h : g.holdings.Tidy owners) : Side S where
  owners := owners
  ledger := g.holdings
  world := g.world
  tidy := h

/-- A call of a client leaves the parts of all other clients alone. -/
theorem Gateway.since_call {g : Gateway S} {owners : Owners S} (h : g.holdings.Tidy owners) {call : Call S}
    {client : S.Party} (hs : g.holdings.subject? call = some client) :
    Since client (g.side (g.holdings.awaiting owners client) (h.awaiting client)) False (call.op.run g).2.holdings
      (call.op.run g).2.world := by
  -- the next numbers go to the client, and the gateway is put beside itself
  let side := g.side (g.holdings.awaiting owners client) (h.awaiting client)
  have hbegin : (side.doubled client).Abreast True g g := .begin
  exact (Pairing.echo_call hs (Pairing.expects_of_awaiting call rfl rfl) hbegin (side.agrees_doubled client _)).2.left

/-- Nobody tops up the session of somebody else. -/
theorem Gateway.run_topUp_foreign {id : SessionId} {v : Voucher S} {g : Gateway S} {c : S.Party}
    (hs : g.ledger.subject? (.topUp id v) = some c) (hv : v.client ≠ c) :
    ∃ e, e.isFatal = false ∧ (Call.topUp id v).op.run g = (.error e, g) := by
  obtain ⟨s, hfound, rfl⟩ := Option.map_eq_some_iff.1 hs
  have hfound : g.sessions.find? id = some s := hfound
  have hrun : ∃ e, e.isFatal = false ∧ (topUp id v).run g = (.error e, g) := by
    rw [topUp, Op.run_findOpenSession_bind, hfound]
    dsimp only
    by_cases hopen : s.isOpen = true
    · rw [if_pos hopen, if_pos hv]
      exact ⟨_, rfl, rfl⟩
    · rw [if_neg hopen]
      exact ⟨_, rfl, rfl⟩
  obtain ⟨e, he, hrun⟩ := hrun
  exact ⟨e, he, (Op.run_map _ _ g).trans (by rw [hrun]; rfl)⟩

/-- A call leaves the parts of all clients alone that it is not addressed to. -/
theorem Gateway.since_addressed {g : Gateway S} {owners : Owners S} (h : g.holdings.Tidy owners) {call : Call S}
    {client : S.Party} (hc : client ∈ g.ledger.addressees call) :
    Since client (g.side (g.holdings.awaiting owners client) (h.awaiting client)) False (call.op.run g).2.holdings
      (call.op.run g).2.world := by
  rcases Ledger.subject_of_mem_addressees hc with hs | ⟨id, v, rfl, rfl⟩
  · exact since_call h hs
  · cases hs : g.ledger.subject? (.topUp id v) with
    | none =>
      rw [(Call.Stray.topUp id v).run hs]
      exact .begin
    | some c =>
      by_cases hv : v.client = c
      · exact since_call h (hs.trans (congrArg some hv.symm))
      · obtain ⟨e, -, hrun⟩ := run_topUp_foreign hs hv
        rw [hrun]
        exact .begin

end VoucherGateway
