import VoucherGateway.Proofs.Run.Episodes

/-!
# Freezing — what a halt does to a client, and to no other

An accounting contradiction halts the client on whom an operation works.  Until somebody resumes the client,
the operations that could carry on with the corrupted accounts are refused before they change anything, and
passes of the reaper leave the client's queries and sessions as they are.

Main statement: contradictions halt, and a halt freezes one client (`contradictions_freeze`), whatever others
have done to the stores and the settlement queue.
-/

namespace VoucherGateway

variable {S : Scheme} {α β : Type}

/-- Calls that pass the gate of a client. -/
def Call.Gated : Call S → Prop
  | .acceptSession _ | .topUp _ _ | .acceptQuery _ _ | .settleQuery _ _ | .abortQuery _ => True
  | _ => False

namespace Gateway

variable {g : Gateway S} {client : S.Party}

/-! ## Contradictions halt -/

/-- If an operation ends in a contradiction, a client is halted. -/
def Halts (client : S.Party) (r : Except Error α × Gateway S) : Prop :=
  ∀ v, r.1 = .error (.violation v) → r.2.gate.isHalted client = true

theorem Halts.harmless {e : Error} (h : ∀ v, e ≠ .violation v) : Halts client ((.error e : Except Error α), g) :=
  fun v hv => absurd (Except.error.inj hv) (h v)

theorem halts_guarding (client : S.Party) (op : Op S α) (g : Gateway S) :
    Halts client ((guarding client op).run g) := by
  intro v hv
  rw [Op.run_guarding] at hv ⊢
  rcases hr : op.run g with ⟨e | a, k⟩ <;> rw [hr] at hv
  · obtain rfl := Except.error.inj hv
    change (k.gate.halted.put client _).get? client |>.isSome
    rw [Table.get?_put_self]
    rfl
  · cases hv

/-- Nothing comes after a contradiction. -/
theorem Halts.bind {op : Op S α} {next : α → Op S β} (h : Halts client (op.run g))
    (hn : ∀ a k, Halts client ((next a).run k)) : Halts client ((op >>= next).run g) := by
  rw [Op.run_bind]
  rcases hr : op.run g with ⟨e | a, k⟩
  · rw [hr] at h
    exact fun v hv => h v (congrArg _ (Except.error.inj hv))
  · exact hn a k

theorem Halts.map {op : Op S α} (h : Halts client (op.run g)) (f : α → β) : Halts client (Op.run (f <$> op) g) := by
  rw [Op.run_map]
  rcases hr : op.run g with ⟨e | a, k⟩
  · rw [hr] at h
    exact fun v hv => h v (congrArg _ (Except.error.inj hv))
  · nofun

theorem halts_enter (client other : S.Party) (g : Gateway S) : Halts client ((enter other).run g) := by
  cases hhalted : g.gate.isHalted other with
  | true =>
    obtain ⟨reason, hrun⟩ := Op.run_enter_of_halted hhalted
    rw [hrun]
    exact .harmless nofun
  | false =>
    rw [Op.run_enter]
    unfold passGate Gate.pass
    rw [Action.run_get_bind, Option.isSome_eq_false_iff.1 hhalted |> Option.isNone_iff_eq_none.1]
    nofun

/-- What is found on record is gone on with. -/
theorem Halts.findOpenSession_bind {id : SessionId} {next : Session S → Op S β}
    (hn : ∀ s, g.sessions.find? id = some s → Halts client ((next s).run g)) :
    Halts client (Op.run (perform (findOpenSession id) >>= next) g) := by
  rw [Op.run_findOpenSession_bind]
  cases hs : g.sessions.find? id with
  | none => exact .harmless nofun
  | some s =>
    dsimp only
    split
    · exact hn s hs
    · exact .harmless nofun

theorem Halts.findQuery_bind {id : QueryId} {next : Query S → Op S β}
    (hn : ∀ q, g.queries.find? id = some q → Halts client ((next q).run g)) :
    Halts client (Op.run (perform (findQuery id) >>= next) g) := by
  rw [Op.run_findQuery_bind]
  cases hq : g.queries.find? id with
  | none => exact .harmless nofun
  | some q => exact hn q hq

theorem halts_abort {id : QueryId} {q : Query S} (hq : g.queries.find? id = some q) (forced : Bool) :
    Halts q.client ((abort id forced).run g) := by
  refine .findQuery_bind fun x hx => ?_
  obtain rfl : q = x := Option.some.inj (hq.symm.trans hx)
  exact (halts_enter _ _ g).bind fun _ k => halts_guarding _ _ k

/-- A call that ends in a contradiction halts whom it is about. -/
theorem halts_call {call : Call S} (hgated : call.Gated) (hs : g.ledger.subject? call = some client) :
    Halts client (call.op.run g) := by
  have session : ∀ {id : SessionId} {s : Session S}, (g.ledger.sessions.find? id).map (·.client) = some client →
      g.sessions.find? id = some s → s.client = client := by
    intro id s hs hfound
    have hfound : g.ledger.sessions.find? id = some s := hfound
    rw [hfound] at hs
    exact Option.some.inj hs
  cases call with
  | acceptSession v =>
    obtain rfl := Option.some.inj hs
    refine Halts.map ?_ _
    refine (halts_enter _ _ g).bind fun _ k => (halts_guarding _ _ k).bind fun _ _ => ?_
    -- a panic is no error
    rw [Op.run_perform, run_openSession]
    nofun
  | topUp id v =>
    refine Halts.map (.findOpenSession_bind fun s hfound => ?_) _
    obtain rfl := session hs hfound
    by_cases hv : v.client = s.client
    · rw [if_neg (not_not_intro hv)]
      refine (halts_enter _ _ g).bind fun _ k => Halts.findOpenSession_bind fun _ _ => ?_
      exact (halts_guarding _ _ k).bind fun _ _ => nofun
    · rw [if_pos hv]
      exact fun _ => nofun
  | acceptQuery id estimated =>
    refine Halts.map (.findOpenSession_bind fun s hfound => ?_) _
    obtain rfl := session hs hfound
    refine (halts_enter _ _ g).bind fun _ k => Halts.findOpenSession_bind fun _ _ => ?_
    exact (halts_guarding _ _ k).bind fun _ _ => nofun
  | settleQuery id usage =>
    obtain ⟨q, hq, rfl⟩ := Option.map_eq_some_iff.1 hs
    refine Halts.map (.findQuery_bind fun x hx => ?_) _
    obtain rfl : q = x := Option.some.inj (hq.symm.trans hx)
    exact (halts_enter _ _ g).bind fun _ k => halts_guarding _ _ k
  | abortQuery id =>
    obtain ⟨q, hfound, rfl⟩ := Option.map_eq_some_iff.1 hs
    exact (halts_abort hfound false).map _
  | _ => exact hgated.elim

/-- A call that ends in a contradiction is addressed to somebody, and to nobody but whom it halts. -/
theorem halts_addressees {call : Call S} (hgated : call.Gated) {v : Violation}
    (hv : (call.op.run g).1 = .error (.violation v)) :
    g.ledger.addressees call ≠ [] ∧
      ∀ c ∈ g.ledger.addressees call, (call.op.run g).2.gate.isHalted c = true := by
  have hreap : ∀ asOf, call ≠ .reap asOf := by
    rintro asOf rfl
    exact hgated
  cases hs : g.ledger.subject? call with
  | none =>
    obtain ⟨e, hstray, -⟩ := Call.stray_of_subject hs hreap
    rw [hstray.run hs] at hv
    obtain rfl := Except.error.inj hv
    cases hstray
  | some client =>
    refine ⟨List.ne_nil_of_mem (Ledger.subject_mem_addressees hs), fun c hc => ?_⟩
    obtain rfl : client = c := by
      rcases Ledger.subject_of_mem_addressees hc with hc | ⟨id, voucher, rfl, rfl⟩
      · exact Option.some.inj (hs.symm.trans hc)
      · by_contra hne
        obtain ⟨e, he, hrun⟩ := run_topUp_foreign hs fun h => hne h.symm
        rw [hrun] at hv
        obtain rfl := Except.error.inj hv
        cases he
    exact halts_call hgated hs v hv

/-! ## Halted clients are refused -/

/-- A gated operation about a halted client is refused, and nothing happens. -/
theorem refused_of_subject {call : Call S} (hgated : call.Gated) (hs : g.ledger.subject? call = some client)
    (hhalted : g.gate.isHalted client = true) : ∃ e, call.op.run g = (.error e, g) := by
  have mapped : ∀ {α : Type} {op : Op S α} (f : α → Reply S), (∃ e, op.run g = (.error e, g)) →
      ∃ e, Op.run (f <$> op) g = (.error e, g) := by
    rintro α op f ⟨e, hrun⟩
    exact ⟨e, by rw [Op.run_map, hrun]; rfl⟩
  have inSession : ∀ {α : Type} {id : SessionId} {s : Session S} {next : Session S → Op S α},
      g.sessions.find? id = some s → (∃ e, (next s).run g = (.error e, g)) →
      ∃ e, Op.run (perform (findOpenSession id) >>= next) g = (.error e, g) := by
    intro α id s next hfound hn
    rw [Op.run_findOpenSession_bind, hfound]
    dsimp only
    split
    · exact hn
    · exact ⟨_, rfl⟩
  have onQuery : ∀ {α : Type} {id : QueryId} {q : Query S} {next : Query S → Op S α},
      g.queries.find? id = some q → (∃ e, (next q).run g = (.error e, g)) →
      ∃ e, Op.run (perform (findQuery id) >>= next) g = (.error e, g) := by
    intro α id q next hfound hn
    rw [Op.run_findQuery_bind, hfound]
    exact hn
  cases call with
  | acceptSession v =>
    obtain rfl := Option.some.inj hs
    exact mapped _ (Op.run_enter_bind_of_halted hhalted _)
  | topUp id v =>
    obtain ⟨s, hfound, rfl⟩ := Option.map_eq_some_iff.1 hs
    refine mapped _ (inSession hfound ?_)
    by_cases hv : v.client = s.client
    · rw [if_neg (not_not_intro hv)]
      exact Op.run_enter_bind_of_halted hhalted _
    · rw [if_pos hv]
      exact ⟨_, rfl⟩
  | acceptQuery id estimated =>
    obtain ⟨s, hfound, rfl⟩ := Option.map_eq_some_iff.1 hs
    exact mapped _ (inSession hfound (Op.run_enter_bind_of_halted hhalted _))
  | settleQuery id usage =>
    obtain ⟨q, hfound, rfl⟩ := Option.map_eq_some_iff.1 hs
    exact mapped _ (onQuery hfound (Op.run_enter_bind_of_halted hhalted _))
  | abortQuery id =>
    obtain ⟨q, hfound, rfl⟩ := Option.map_eq_some_iff.1 hs
    exact mapped _ (onQuery hfound (Op.run_enter_bind_of_halted hhalted _))
  | _ => exact hgated.elim

/-- So is one that is addressed to a halted client. -/
theorem refused_of_halted {call : Call S} (hgated : call.Gated) (hc : client ∈ g.ledger.addressees call)
    (hhalted : g.gate.isHalted client = true) : ∃ e, call.op.run g = (.error e, g) := by
  rcases Ledger.subject_of_mem_addressees hc with hs | ⟨id, v, rfl, rfl⟩
  · exact refused_of_subject hgated hs hhalted
  · cases hs : g.ledger.subject? (.topUp id v) with
    | none => exact ⟨_, (Call.Stray.topUp id v).run hs⟩
    | some c =>
      by_cases hv : v.client = c
      · exact refused_of_subject hgated (hs.trans (congrArg some hv.symm)) hhalted
      · obtain ⟨e, -, hrun⟩ := run_topUp_foreign hs hv
        exact ⟨e, hrun⟩

/-! ## Halts last -/

variable {owners : Owners S}

/-- What passes no gate leaves it as it is. -/
theorem gate_of_ungated {call : Call S} (hgated : ¬ call.Gated) (hreap : ∀ asOf, call ≠ .reap asOf)
    (hresume : ∀ c, call ≠ .resumeClient c) : (call.op.run g).2.gate = g.gate := by
  cases call with
  | closeSession id =>
    change (Op.run ((fun _ => Reply.done) <$> perform (closeSession id)) g).2.gate = g.gate
    rw [Op.run_map, Op.run_perform]
    unfold closeSession
    rw [Action.run_get_bind]
    cases g.sessions.find? id with
    | none => rfl
    | some s =>
      dsimp only
      split <;> rfl
  | reap asOf => exact absurd rfl (hreap asOf)
  | resumeClient c => exact absurd rfl (hresume c)
  | beginBatch c => rfl
  | completeBatch c reference => rfl
  | failBatch c => rfl
  | _ => exact absurd trivial hgated

/-- Calls but the one that resumes the client leave a halt. -/
theorem halted_after_call {call : Call S} (h : g.holdings.Tidy owners) (hhalted : g.gate.isHalted client = true)
    (hne : call ≠ .resumeClient client) : (call.op.run g).2.gate.isHalted client = true := by
  by_cases hreap : ∃ asOf, call = .reap asOf
  · obtain ⟨asOf, rfl⟩ := hreap
    have haccount := account_reap h hhalted asOf
    rw [run_call_reap]
    exact (congrArg (fun a => a.halted.isSome) haccount).trans hhalted
  · have hreap : ∀ asOf, call ≠ .reap asOf := fun asOf h => hreap ⟨asOf, h⟩
    cases hs : g.ledger.subject? call with
    | none =>
      obtain ⟨e, hstray, -⟩ := Call.stray_of_subject hs hreap
      rw [hstray.run hs]
      exact hhalted
    | some c =>
      by_cases hc : client = c
      · -- the client's own calls are refused, or they do not ask the gate
        subst hc
        by_cases hgated : call.Gated
        · obtain ⟨e, hrun⟩ := refused_of_subject hgated hs hhalted
          rw [hrun]
          exact hhalted
        · rw [gate_of_ungated hgated hreap ?_]
          · exact hhalted
          · rintro d rfl
            obtain rfl := Option.some.inj hs
            exact hne rfl
      · exact (isHalted_of_account ((since_call h hs).account hc)).trans hhalted

/-- A halt lasts until somebody resumes the client. -/
theorem halted_live (h : g.holdings.Tidy owners) (hhalted : g.gate.isHalted client = true)
    (later : List (Episode S)) (hlater : ∀ world, .called ⟨world, .resumeClient client⟩ ∉ later) :
    (g.live later).gate.isHalted client = true := by
  have hboth : (∃ owners, (g.live later).holdings.Tidy owners) ∧ (g.live later).gate.isHalted client = true := by
    induction later with
    | nil => exact ⟨⟨owners, h⟩, hhalted⟩
    | cons episode rest ih =>
      obtain ⟨⟨owners', htidy⟩, hrest⟩ := ih fun world hmem => hlater world (List.mem_cons_of_mem _ hmem)
      cases episode with
      | altered i => exact ⟨⟨owners', tidy_altered htidy i⟩, hrest⟩
      | called m =>
        have hne : m.call ≠ .resumeClient client := by
          intro hcall
          refine hlater m.world ?_
          rw [← hcall]
          exact List.mem_cons_self
        exact ⟨tidy_after htidy m, halted_after_call (g := (g.live rest).inWorld m.world) htidy hrest hne⟩
  exact hboth.2

/-! ## Nobody else feels a halt -/

/-- The gateway, if a client were not halted. -/
def unhalted (g : Gateway S) (client : S.Party) : Gateway S := { g with gate := (g.gate.resume client).2 }

/-- What is not addressed to a client comes to the same as if the client were not halted. -/
theorem unfelt_halt (h : g.holdings.Tidy owners) {call : Call S} (hreap : ∀ asOf, call ≠ .reap asOf)
    (hc : client ∉ g.ledger.addressees call) : ((call.op.run (g.unhalted client)).1 = (call.op.run g).1) := by
  cases hs : g.ledger.subject? call with
  | none =>
    obtain ⟨e, hstray, -⟩ := Call.stray_of_subject hs hreap
    have hs' : (g.unhalted client).ledger.subject? call = none := by
      cases call <;> exact hs
    rw [hstray.run hs, hstray.run hs']
  | some other =>
    have hne : client ≠ other := by
      rintro rfl
      exact hc (Ledger.subject_mem_addressees hs)
    have hfits : g.holdings.Fits owners client (.halted none) := trivial
    have htidy : (g.unhalted client).holdings.Tidy owners := h.amend hfits
    -- both gateways match on all clients but the one, under the same numbers
    let σ : Pairing S :=
      { client := other
        watched := fun c => decide (c ≠ client)
        watches := by simpa using hne.symm
        numbers := .refl
        left := g.side _ (h.awaiting other)
        right := (g.unhalted client).side _ (htidy.awaiting other)
        matched := (Ledger.Matches.refl _ _).amend_unwatched h hfits (by simp)
        worlds := .refl _
        terms := rfl }
    have hbegin : σ.Abreast True g (g.unhalted client) := .begin
    have hcall := Pairing.echo_call hs (Pairing.expects_of_awaiting call rfl rfl) hbegin ⟨fun _ => rfl, fun _ => rfl⟩
    have hout := hcall.1.eq_of_refl fun _ _ hr => hr.eq_of_refl
    rw [Call.rename_refl] at hout
    exact hout

/-! ## Contradictions in a pass -/

/-- Whoever's query a pass finds in contradiction is halted when the pass is over. -/
theorem halted_reap (h : g.holdings.Tidy owners) {asOf : Nat} {before rest : List QueryId} {id : QueryId}
    (hoverdue : g.queries.overdue asOf g.config.engine.queryDeadline = before ++ id :: rest) {v : Violation}
    (hv : ((abort id true).run (g.abortAll before)).1 = .error (.violation v)) :
    ∃ q ∈ g.queries.rows, q.id = id ∧ ((reap asOf).run g).2.gate.isHalted q.client = true := by
  have hmem : id ∈ g.queries.overdue asOf g.config.engine.queryDeadline := by
    rw [hoverdue]
    exact List.mem_append_right _ List.mem_cons_self
  obtain ⟨q, hq, hid⟩ := List.mem_map.1 hmem
  have hq : q ∈ g.queries.rows := (List.mem_filter.1 hq).1
  refine ⟨q, hq, hid, ?_⟩
  -- the abort halts the client, and the rest of the pass goes on around the halt
  let k := g.abortAll before
  have hk : k.holdings.Tidy owners := tidy_foldl actsForOne_abort before h
  have hhalted : ((abort id true).run k).2.gate.isHalted q.client = true := by
    cases hx : k.queries.find? id with
    | none =>
      rw [abort, Op.run_findQuery_bind, hx] at hv
      cases hv
    | some x =>
      obtain ⟨hxmem, hxid⟩ := QueryTable.mem_of_find? hx
      have hclient : x.client = q.client := by
        rw [← hk.queries x hxmem, ← h.queries q hq, hxid, hid]
      exact hclient ▸ halts_abort hx true v hv
  have hrun : g.abortAll (before ++ id :: rest) = ((abort id true).run k).2.abortAll rest := List.foldl_append
  have hpassed := passesOver_of_aborts ((actsForOne_abort id).tidy hk) hhalted asOf rest
    ((((abort id true).run k).2.abortAll rest).sessions.idle asOf
      (((abort id true).run k).2.abortAll rest).config.engine.sessionIdleTimeout)
  rw [run_reap, hoverdue, hrun]
  exact (isHalted_of_account hpassed.account).trans hhalted

/-! ## The freeze -/

/-- How a halted client fares, and all others. -/
structure Freezes (g : Gateway S) (client : S.Party) : Prop where
  /-- The five operations are refused, and nothing of the gateway changes. -/
  refused : ∀ m : Move S, m.call.Gated → client ∈ g.ledger.addressees m.call →
    ∃ e, g.after m = (.error e, g.inWorld m.world)
  /-- A pass aborts none of the client's queries and closes none of the sessions; it only forgets what has been
  finished for long enough. -/
  spared : ∀ world asOf, (g.after ⟨world, .reap asOf⟩).2.ledger.account client =
    (g.ledger.account client).swept asOf g.config.engine.queryRetention
  /-- What is not addressed to the client comes to the same as without the halt. -/
  unfelt : ∀ m : Move S, (∀ asOf, m.call ≠ .reap asOf) → client ∉ g.ledger.addressees m.call →
    (g.after m).1 = ((g.unhalted client).after m).1
  /-- The halt lasts, whatever happens, unless somebody resumes the client. -/
  lasts : ∀ later : List (Episode S), (∀ world, .called ⟨world, .resumeClient client⟩ ∉ later) →
    (g.live later).gate.isHalted client = true
  /-- Resuming the client lifts it. -/
  lifted : ∀ world, (g.after ⟨world, .resumeClient client⟩).2.gate.isHalted client = false

/-- Contradictions halt the client concerned, in calls and in passes, and a halt freezes this client alone. -/
theorem contradictions_freeze (vendor : S.Party) (config : GatewayConfig) (metrics : Metrics)
    (episodes : List (Episode S)) :
    let g := (fresh vendor config metrics).live episodes
    (∀ m : Move S, m.call.Gated → ∀ v, (g.after m).1 = .error (.violation v) →
      g.ledger.addressees m.call ≠ [] ∧
        ∀ client ∈ g.ledger.addressees m.call, (g.after m).2.gate.isHalted client = true) ∧
    (∀ world asOf before id rest v,
      g.queries.overdue asOf g.config.engine.queryDeadline = before ++ id :: rest →
      ((abort id true).run ((g.inWorld world).abortAll before)).1 = .error (.violation v) →
      ∃ q ∈ g.queries.rows, q.id = id ∧ (g.after ⟨world, .reap asOf⟩).2.gate.isHalted q.client = true) ∧
    ∀ client, g.gate.isHalted client = true → g.Freezes client := by
  intro g
  obtain ⟨owners, htidy⟩ := tidy_live vendor config metrics episodes
  refine ⟨?_, ?_, fun client hhalted => ?_⟩
  · intro m hgated v hv
    exact halts_addressees (g := g.inWorld m.world) hgated hv
  · intro world asOf before id rest v hoverdue hv
    obtain ⟨q, hq, hid, hhalted⟩ := halted_reap (g := g.inWorld world) htidy hoverdue hv
    refine ⟨q, hq, hid, ?_⟩
    unfold after
    rw [run_call_reap]
    exact hhalted
  · constructor
    case refused =>
      intro m hgated hc
      exact refused_of_halted (g := g.inWorld m.world) hgated hc hhalted
    case spared =>
      intro world asOf
      unfold after
      rw [run_call_reap]
      exact account_reap (g := g.inWorld world) htidy hhalted asOf
    case unfelt =>
      intro m hreap hc
      exact (unfelt_halt (g := g.inWorld m.world) htidy hreap hc).symm
    case lasts => exact fun later hlater => halted_live htidy hhalted later hlater
    case lifted =>
      intro world
      change ((g.gate.halted.erase client).get? client).isSome = false
      rw [Table.get?_erase_self]
      rfl

/-- Somebody empties the stores while a query of the client runs: its estimate cannot be unlocked any more, and
the client is halted. -/
theorem contradictions_freeze_sample :
    let settle : Move Scheme.plain := ⟨Sample.world, .settleQuery ⟨1⟩ ⟨540000, 0⟩⟩
    let emptied : List (Episode Scheme.plain) :=
      .altered ⟨{}, VoucherStore.filed_empty, {}, {}, {}⟩ :: (Sample.reserving 100).map .called
    failure? ((Sample.start.live emptied).after settle).1 =
        some (.violation (.negativeLocked (Scheme.plain.partyText 1) 0 100)) ∧
      (Sample.start.live (.called settle :: emptied)).Freezes 1 := by
  intro settle emptied
  have hv : failure? ((Sample.start.live emptied).after settle).1 =
      some (.violation (.negativeLocked (Scheme.plain.partyText 1) 0 100)) := by decide +kernel
  obtain ⟨hhalts, -, -⟩ := contradictions_freeze (S := Scheme.plain) 9 Sample.config {} emptied
  obtain ⟨-, -, hfreezes⟩ := contradictions_freeze (S := Scheme.plain) 9 Sample.config {} (.called settle :: emptied)
  have haddressee : (1 : Scheme.plain.Party) ∈ (Sample.start.live emptied).ledger.addressees settle.call := by
    decide +kernel
  exact ⟨hv, hfreezes 1 ((hhalts settle trivial _ (eq_of_failure? hv)).2 1 haddressee)⟩

end Gateway
end VoucherGateway
