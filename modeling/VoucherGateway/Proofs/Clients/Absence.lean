import VoucherGateway.Proofs.Clients.Passes

/-!
# Absence — a gateway that one client never called

Two gateways differ by one client's calls: the second one holds nothing of that client, and of all others it
holds what the first one holds, under other numbers.  Calls of that client on the first gateway, calls of
anybody else on both, and passes of the reaper on both leave it so.

Main statements: `Without.deleted`, `Without.kept` and `Without.reap`.
-/

namespace VoucherGateway

variable {S : Scheme}

open Gateway

/-- The second gateway holds nothing of one client, and what the first one holds of all others. -/
structure Without (absent : S.Party) (ρ : Renaming) (owners owners' : Owners S) (g g' : Gateway S) : Prop where
  left : g.holdings.Tidy owners
  right : g'.holdings.Tidy owners'
  matched : g.holdings.Matches (fun c => decide (c ≠ absent)) ρ g'.holdings
  noQueries : ∀ q ∈ g'.queries.rows, q.client ≠ absent
  noSessions : ∀ s ∈ g'.sessions.rows, s.client ≠ absent
  worlds : g.world.Twins g'.world
  terms : g'.holdings.terms = g.holdings.terms

namespace Without

variable {absent : S.Party} {ρ : Renaming} {owners owners' : Owners S} {g g' k k' : Gateway S}

/-! ## What is on record -/

theorem config (h : Without absent ρ owners owners' g g') : g'.config = g.config := congrArg (·.2.1) h.terms

theorem queries (h : Without absent ρ owners owners' g g') :
    g'.queries.rows = (g.queries.rows.filter fun q => decide (q.client ≠ absent)).map (·.rename ρ) := by
  refine Eq.trans ?_ h.matched.queries
  exact (List.filter_eq_self.2 fun q hq => decide_eq_true (h.noQueries q hq)).symm

theorem sessions (h : Without absent ρ owners owners' g g') :
    g'.sessions.rows = (g.sessions.rows.filter fun s => decide (s.client ≠ absent)).map (·.rename ρ) := by
  refine Eq.trans ?_ h.matched.sessions
  exact (List.filter_eq_self.2 fun s hs => decide_eq_true (h.noSessions s hs)).symm

/-- Queries of others are found under their other numbers. -/
theorem find?_query (h : Without absent ρ owners owners' g g') {id : QueryId}
    (hid : ∀ q ∈ g.queries.rows, q.id = id → q.client ≠ absent) :
    g'.queries.find? (ρ.query id) = (g.queries.find? id).map (·.rename ρ) :=
  h.matched.find?_query (fun q hq hq' => decide_eq_true (hid q hq hq'))
    fun q hq _ => decide_eq_true (h.noQueries q hq)

theorem find?_session (h : Without absent ρ owners owners' g g') {id : SessionId}
    (hid : ∀ s ∈ g.sessions.rows, s.id = id → s.client ≠ absent) :
    g'.sessions.find? (ρ.session id) = (g.sessions.find? id).map (·.rename ρ) :=
  h.matched.find?_session (fun s hs hs' => decide_eq_true (hid s hs hs'))
    fun s hs _ => decide_eq_true (h.noSessions s hs)

/-- Clients but the absent one have the same accounts. -/
theorem account (h : Without absent ρ owners owners' g g') {client : S.Party} (hne : client ≠ absent) :
    g'.ledger.account client = (g.ledger.account client).rename ρ :=
  h.matched.account (decide_eq_true hne)

/-! ## On the first gateway alone -/

/-- The absent client may do things on the first gateway. -/
theorem since (h : Without absent ρ owners owners' g g') {owners₁ : Owners S} {hside : g.holdings.Tidy owners₁}
    (hsince : Since absent (g.side owners₁ hside) False k.holdings k.world) :
    Without absent ρ owners₁ owners' k g' where
  left := hsince.tidy
  right := h.right
  matched := hsince.others.of_left h.matched
  noQueries := h.noQueries
  noSessions := h.noSessions
  worlds := (hsince.world h.worlds.left).symm.trans h.worlds
  terms := h.terms.trans hsince.terms.symm

/-- A call that is addressed to the absent client. -/
theorem deleted (h : Without absent ρ owners owners' g g') {call : Call S}
    (hcall : absent ∈ g.ledger.addressees call) :
    ∃ owners₁, Without absent ρ owners₁ owners' (call.op.run g).2 g' :=
  ⟨_, h.since (since_addressed h.left hcall)⟩

/-! ## On both gateways -/

/-- The two gateways, when they serve somebody else. -/
def pairing (h : Without absent ρ owners owners' g g') {client : S.Party} (hne : client ≠ absent) : Pairing S where
  client := client
  watched c := decide (c ≠ absent)
  watches := decide_eq_true hne
  numbers := ρ
  left := g.side owners h.left
  right := g'.side owners' h.right
  matched := h.matched
  worlds := .inr h.worlds
  terms := h.terms

/-- They may both serve somebody else. -/
theorem level (h : Without absent ρ owners owners' g g') {client : S.Party} (hne : client ≠ absent)
    (hlevel : (h.pairing hne).Abreast False k k') : Without absent ρ owners owners' k k' where
  left := hlevel.left.tidy
  right := hlevel.right.tidy
  matched := hlevel.matched
  noQueries := by
    rintro q hq rfl
    exact h.noQueries q (hlevel.right.mem_queries hq hne.symm) rfl
  noSessions := by
    rintro s hs rfl
    exact h.noSessions s (hlevel.right.mem_sessions hs hne.symm) rfl
  worlds := by
    have hleft := hlevel.left.world h.worlds.left
    have hright := hlevel.right.world h.worlds.right
    exact hleft.symm.trans (h.worlds.trans hright)
  terms := hlevel.terms

/-- For a call, the next numbers are awaited for its subject. -/
theorem awaiting (h : Without absent ρ owners owners' g g') (client : S.Party) :
    Without absent ρ (g.holdings.awaiting owners client) (g'.holdings.awaiting owners' client) g g' :=
  { h with left := h.left.awaiting client, right := h.right.awaiting client }

/-- What a call is about is the same under other numbers. -/
theorem subject (h : Without absent ρ owners owners' g g') {call : Call S}
    (hkept : absent ∉ g.ledger.addressees call) :
    g'.ledger.subject? (call.rename ρ) = g.ledger.subject? call := by
  have session : ∀ {id : SessionId}, absent ∉ ((g.sessions.find? id).map (·.client)).toList →
      (g'.sessions.find? (ρ.session id)).map (·.client) = (g.sessions.find? id).map (·.client) := by
    intro id hid
    -- sessions of one number have one owner, whichever of them is found
    have hothers : ∀ s ∈ g.sessions.rows, s.id = id → s.client ≠ absent := by
      rintro s hs rfl rfl
      have hsome : (g.sessions.rows.find? fun x => decide (x.id = s.id)).isSome = true :=
        List.find?_isSome.2 ⟨s, hs, by simp⟩
      obtain ⟨s₀, hs₀⟩ := Option.isSome_iff_exists.1 hsome
      have hfound : g.sessions.find? s.id = some s₀ := hs₀
      obtain ⟨hmem₀, hid₀⟩ := SessionTable.mem_of_find? hfound
      have hclient : s₀.client = s.client := by
        rw [← h.left.sessions s₀ hmem₀, ← h.left.sessions s hs, hid₀]
      exact hid (by simp [hfound, hclient])
    rw [h.find?_session hothers, Option.map_map]
    rfl
  have query : ∀ {id : QueryId}, absent ∉ ((g.queries.find? id).map (·.client)).toList →
      (g'.queries.find? (ρ.query id)).map (·.client) = (g.queries.find? id).map (·.client) := by
    intro id hid
    have hothers : ∀ q ∈ g.queries.rows, q.id = id → q.client ≠ absent := by
      rintro q hq rfl rfl
      have hfound : g.queries.find? q.id = some q := h.left.numbered.find? hq
      exact hid (by simp [hfound])
    rw [h.find?_query hothers, Option.map_map]
    rfl
  cases call with
  | topUp id v => exact session fun hmem => hkept (List.mem_cons_of_mem _ hmem)
  | acceptQuery id estimated => exact session hkept
  | closeSession id => exact session hkept
  | settleQuery id usage => exact query hkept
  | abortQuery id => exact query hkept
  | _ => rfl

/-- A call that is not addressed to the absent client has the same outcome on both gateways, unless the counters of
one panic, and is done on both. -/
theorem kept (h : Without absent ρ owners owners' g g') {call : Call S} (hreap : ∀ asOf, call ≠ .reap asOf)
    (hkept : absent ∉ g.ledger.addressees call)
    (hquery : g.queries.next < (call.op.run g).2.queries.next → ρ.query ⟨g.queries.next⟩ = ⟨g'.queries.next⟩)
    (hsession : g.sessions.next < (call.op.run g).2.sessions.next →
      ρ.session ⟨g.sessions.next⟩ = ⟨g'.sessions.next⟩) :
    SameOutcome ρ (Reply.Same ρ g.metrics.counters g'.metrics.counters) (call.op.run g).1
        ((call.rename ρ).op.run g').1 ∧
      (∃ owners₁ owners₁', Without absent ρ owners₁ owners₁' (call.op.run g).2 ((call.rename ρ).op.run g').2) ∧
      ((call.rename ρ).op.run g').2.queries.next + g.queries.next = (call.op.run g).2.queries.next + g'.queries.next ∧
      ((call.rename ρ).op.run g').2.sessions.next + g.sessions.next =
        (call.op.run g).2.sessions.next + g'.sessions.next := by
  have hsubject := h.subject hkept
  cases hs : g.ledger.subject? call with
  | none =>
    obtain ⟨e, hstray, hrenamed⟩ := Call.stray_of_subject hs hreap
    obtain ⟨e', halias, hstray'⟩ := hrenamed ρ
    rw [hstray.run hs, hstray'.run (hsubject.trans hs)]
    exact ⟨.error halias, ⟨owners, owners', h⟩, Nat.add_comm _ _, Nat.add_comm _ _⟩
  | some client =>
    have hne : client ≠ absent := by
      rintro rfl
      exact hkept (Ledger.subject_mem_addressees hs)
    let σ := (h.awaiting client).pairing hne
    have hbegin : σ.Abreast True g g' := .begin
    have hcall := Pairing.echo_call hs (Pairing.expects_of_awaiting call rfl rfl) hbegin ⟨hquery, hsession⟩
    exact ⟨hcall.1, ⟨_, _, (h.awaiting client).level hne hcall.2⟩, hcall.2.queries, hcall.2.sessions⟩

/-! ## Passes -/

/-- What a pass does about one query after another: on the second gateway the absent client's are missing. -/
theorem foldl {ι : Type} {f : Gateway S → ι → Gateway S} {other : ι → ι} (mine : ι → Bool)
    (hone : ∀ i, mine i = true → ∀ {g g'}, Without absent ρ owners owners' g g' →
      Without absent ρ owners owners' (f g i) g')
    (hboth : ∀ i, mine i = false → ∀ {g g'}, Without absent ρ owners owners' g g' →
      Without absent ρ owners owners' (f g i) (f g' (other i)))
    (items : List ι) (h : Without absent ρ owners owners' g g') :
    Without absent ρ owners owners' (items.foldl f g)
      (((items.filter fun i => !mine i).map other).foldl f g') := by
  induction items generalizing g g' with
  | nil => exact h
  | cons i rest ih =>
    cases hi : mine i with
    | true =>
      simp only [List.foldl_cons, List.filter_cons, hi]
      exact ih (hone i hi h)
    | false =>
      simp only [List.foldl_cons, List.filter_cons, hi]
      exact ih (hboth i hi h)

theorem abort_mine (h : Without absent ρ owners owners' g g') {id : QueryId} (hid : owners.query id = absent) :
    Without absent ρ owners owners' ((abort id true).run g).2 g' := by
  rcases since_abort h.left id true with ⟨e, hrun⟩ | ⟨q, hq, rfl, -, hsince⟩
  · rw [hrun]
    exact h
  · obtain rfl : q.client = absent := (h.left.queries q hq).symm.trans hid
    exact h.since hsince

theorem abort_both (h : Without absent ρ owners owners' g g') {id : QueryId} (hid : owners.query id ≠ absent) :
    Without absent ρ owners owners' ((abort id true).run g).2 ((abort (ρ.query id) true).run g').2 := by
  have hfound : g'.queries.find? (ρ.query id) = (g.queries.find? id).map (·.rename ρ) :=
    h.find?_query fun q hq hqid hclient => hid (by rw [← hqid, h.left.queries q hq, hclient])
  cases hq : g.queries.find? id with
  | none =>
    rw [hq] at hfound
    rw [abort, abort, Op.run_findQuery_bind, Op.run_findQuery_bind, hq, hfound]
    exact h
  | some q =>
    obtain ⟨hmem, rfl⟩ := QueryTable.mem_of_find? hq
    have hne : q.client ≠ absent := fun hclient => hid ((h.left.queries q hmem).trans hclient)
    have howns : (h.pairing hne).OwnsQuery q.id := Pairing.ownsQuery (σ := h.pairing hne) hmem rfl
    exact h.level hne (Pairing.echo_abort howns true g g' .begin).2

theorem closeIdle_mine (h : Without absent ρ owners owners' g g') (asOf : Nat) {id : SessionId}
    (hid : owners.session id = absent) : Without absent ρ owners owners' ((closeIdle asOf id).run g).2 g' := by
  rcases since_closeIdle h.left asOf id with hrun | ⟨s, hs, rfl, -, hsince⟩
  · rw [hrun]
    exact h
  · obtain rfl : s.client = absent := (h.left.sessions s hs).symm.trans hid
    exact h.since hsince

theorem closeIdle_both (h : Without absent ρ owners owners' g g') (asOf : Nat) {id : SessionId}
    (hid : owners.session id ≠ absent) :
    Without absent ρ owners owners' ((closeIdle asOf id).run g).2 ((closeIdle asOf (ρ.session id)).run g').2 := by
  have hfound : g'.sessions.find? (ρ.session id) = (g.sessions.find? id).map (·.rename ρ) :=
    h.find?_session fun s hs hsid hclient => hid (by rw [← hsid, h.left.sessions s hs, hclient])
  cases hs : g.sessions.find? id with
  | none =>
    rw [hs] at hfound
    unfold closeIdle
    rw [Op.run_get_bind, Op.run_get_bind, hs, hfound]
    exact h
  | some s =>
    obtain ⟨hmem, rfl⟩ := SessionTable.mem_of_find? hs
    have hne : s.client ≠ absent := fun hclient => hid ((h.left.sessions s hmem).trans hclient)
    have howns : (h.pairing hne).OwnsSession s.id := Pairing.ownsSession (σ := h.pairing hne) hmem rfl
    exact h.level hne (Pairing.echoes_closeIdle asOf howns g g' .begin).2.late

/-- The keys of the rows chosen among renamed rows are the renamed keys of the rows chosen. -/
theorem keys_of_renamed {α κ : Type} {rows : List α} {here chosen : α → Bool} {rename : α → α} {key : α → κ}
    {mine : κ → Bool} {other : κ → κ} (hchosen : ∀ x, chosen (rename x) = chosen x)
    (hkey : ∀ x, key (rename x) = other (key x)) (hhere : ∀ x ∈ rows, (!mine (key x)) = here x) :
    (((rows.filter here).map rename).filter chosen).map key =
      (((rows.filter chosen).map key).filter fun i => !mine i).map other := by
  have hsame : (rows.filter chosen).filter ((fun i => !mine i) ∘ key) = (rows.filter chosen).filter here :=
    List.filter_congr fun x hx => hhere x (List.mem_filter.1 hx).1
  have hrename : chosen ∘ rename = chosen := funext hchosen
  rw [List.filter_map, List.filter_map, List.map_map, List.map_map, hsame, hrename, List.filter_comm]
  exact List.map_congr_left fun x _ => hkey x

/-- What is overdue on the second gateway is what is overdue of the others on the first. -/
theorem overdue (h : Without absent ρ owners owners' g g') (now deadline : Nat) :
    g'.queries.overdue now deadline =
      ((g.queries.overdue now deadline).filter fun id => !decide (owners.query id = absent)).map ρ.query := by
  unfold QueryTable.overdue
  rw [h.queries]
  refine keys_of_renamed (fun _ => rfl) (fun _ => rfl) fun q hq => ?_
  rw [h.left.queries q hq]
  exact (decide_not ..).symm

theorem idle (h : Without absent ρ owners owners' g g') (now timeout : Nat) :
    g'.sessions.idle now timeout =
      ((g.sessions.idle now timeout).filter fun id => !decide (owners.session id = absent)).map ρ.session := by
  unfold SessionTable.idle
  rw [h.sessions]
  refine keys_of_renamed (fun _ => rfl) (fun _ => rfl) fun s hs => ?_
  rw [h.left.sessions s hs]
  exact (decide_not ..).symm

/-- Dropping rows commutes with renaming. -/
theorem filter_of_renamed {α : Type} {rows rows' : List α} {here chosen : α → Bool} {rename : α → α}
    (hchosen : ∀ x, chosen (rename x) = chosen x) (h : rows'.filter here = (rows.filter here).map rename) :
    (rows'.filter chosen).filter here = ((rows.filter chosen).filter here).map rename := by
  have hrename : chosen ∘ rename = chosen := funext hchosen
  rw [List.filter_comm, h, List.filter_map, hrename, List.filter_comm here chosen rows]

theorem sweep (h : Without absent ρ owners owners' g g') (asOf : Nat) :
    Without absent ρ owners owners' (g.sweep asOf) (g'.sweep asOf) where
  left := tidy_sweep h.left asOf
  right := tidy_sweep h.right asOf
  matched := by
    refine ⟨h.matched.folio, ?_, ?_⟩
    · change (g'.queries.rows.filter fun q => !q.isStale asOf g'.config.engine.queryRetention).filter _ = _
      rw [h.config]
      exact filter_of_renamed (fun _ => rfl) h.matched.queries
    · change (g'.sessions.rows.filter fun s => !s.isStale asOf g'.config.engine.queryRetention).filter _ = _
      rw [h.config]
      exact filter_of_renamed (fun _ => rfl) h.matched.sessions
  noQueries q hq := h.noQueries q (List.mem_filter.1 hq).1
  noSessions s hs := h.noSessions s (List.mem_filter.1 hs).1
  worlds := h.worlds
  terms := h.terms

/-- A pass on both gateways. -/
theorem reap (h : Without absent ρ owners owners' g g') (asOf : Nat) :
    Without absent ρ owners owners' ((Gateway.reap asOf).run g).2 ((Gateway.reap asOf).run g').2 := by
  have haborted : Without absent ρ owners owners'
      (g.abortAll (g.queries.overdue asOf g.config.engine.queryDeadline))
      (g'.abortAll (g'.queries.overdue asOf g'.config.engine.queryDeadline)) := by
    rw [h.overdue, h.config]
    refine h.foldl (fun id => decide (owners.query id = absent)) ?_ ?_ _
    · exact fun id hid _ _ h => h.abort_mine (of_decide_eq_true hid)
    · exact fun id hid _ _ h => h.abort_both (of_decide_eq_false hid)
  rw [run_reap, run_reap]
  refine Without.sweep ?_ asOf
  rw [haborted.idle, haborted.config]
  refine haborted.foldl (fun id => decide (owners.session id = absent)) ?_ ?_ _
  · exact fun id hid _ _ h => h.closeIdle_mine asOf (of_decide_eq_true hid)
  · exact fun id hid _ _ h => h.closeIdle_both asOf (of_decide_eq_false hid)

end Without
end VoucherGateway
