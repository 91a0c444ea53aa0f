import VoucherGateway.Proofs.Clients.Absence
import VoucherGateway.Proofs.Run.Episodes
import VoucherGateway.Proofs.Run.Histories

/-!
# Isolation — what one client does is nothing to the others

All clients call the same gateway, and it serves them from the same tables and counters.  Still nobody's account
is affected by what somebody else does, but for the numbers of queries and sessions.  Answers are not affected
either, but for the totals that all clients share: where one of them runs over, the call that is told of it
panics, whoever brought the total so far.

Main statement: calls of one client leave the accounts of all others alone, and deleting them from a history
in which nothing fails changes none of their accounts but for the numbers, and no answer to them but where a
total runs over (`clients_isolated`).
-/

namespace VoucherGateway

variable {S : Scheme}

namespace Gateway

variable {start g g' : Gateway S} {owners owners' : Owners S} {absent : S.Party} {ρ : Renaming}

/-! ## New numbers -/

/-- The numbers of the others, if one client's calls are deleted from a history. -/
def renumbering (h : start.holdings.Tidy owners) (absent : S.Party) (run : List (Happening S)) : Renaming :=
  .ranked (start.givenToOthers absent (·.queries.next) run) (start.givenToOthers absent (·.sessions.next) run)
    (start.history run).queries.next (start.history run).sessions.next
    (fun _ hn => ((counts_queries h).bounds hn).2) fun _ hn => ((counts_sessions h).bounds hn).2

/-- How many of the numbers below the next one were given to others than a client. -/
def othersCount (start : Gateway S) (absent : S.Party) (next : Gateway S → Nat) (run : List (Happening S))
    (g : Gateway S) : Nat :=
  Nat.count (fun n => start.givenToOthers absent next run n = true) (next g)

namespace Counts

variable {next : Gateway S → Nat}

theorem othersCount_start (hnext : start.Counts next) (run : List (Happening S)) :
    start.othersCount absent next run start = 0 :=
  Nat.count_of_forall_not fun _ hn hgiven => absurd (hnext.bounds hgiven).1 (Nat.not_le.2 hn)

/-- What happens counts unless it is the client's. -/
theorem othersCount_cons (hnext : start.Counts next) (absent : S.Party) (later : List (Happening S))
    (h : Happening S) (earlier : List (Happening S)) :
    start.othersCount absent next (later ++ h :: earlier) (start.history (h :: earlier)) =
      start.othersCount absent next (later ++ h :: earlier) (start.history earlier) +
        if h.isOf absent (start.history earlier) then 0
        else next (start.history (h :: earlier)) - next (start.history earlier) := by
  refine (count_of_constant (hnext earlier h) fun n hle hlt => hnext.givenToOthers_eq absent later h hle hlt).trans ?_
  unfold othersCount
  cases h.isOf absent (start.history earlier) <;> rfl

/-- Numbers given to others are given by both gateways. -/
theorem othersCount_kept (hnext : start.Counts next) (later : List (Happening S)) {h : Happening S}
    {earlier : List (Happening S)} (hkept : h.isOf absent (start.history earlier) = false) {n n' : Nat}
    (hn : n = start.othersCount absent next (later ++ h :: earlier) (start.history earlier) + 1)
    (hn' : n' + next (start.history earlier) = next (start.history (h :: earlier)) + n) :
    n' = start.othersCount absent next (later ++ h :: earlier) (start.history (h :: earlier)) + 1 := by
  have hle : next (start.history earlier) ≤ next (start.history (h :: earlier)) := hnext earlier h
  have hcount := hnext.othersCount_cons absent later h earlier
  rw [hkept, if_neg Bool.false_ne_true] at hcount
  omega

end Counts

/-- The gateway after a history without the calls of a client, under other numbers. -/
def remainder (start : Gateway S) (absent : S.Party) (ρ : Renaming) (run : List (Happening S)) : Gateway S :=
  start.history ((start.without absent run).map (·.rename ρ))

theorem remainder_cons (start : Gateway S) (absent : S.Party) (ρ : Renaming) (h : Happening S)
    (earlier : List (Happening S)) :
    start.remainder absent ρ (h :: earlier) =
      if h.isOf absent (start.history earlier) then start.remainder absent ρ earlier
      else (h.rename ρ).on (start.remainder absent ρ earlier) := by
  unfold remainder
  rw [without]
  split <;> rfl

/-! ## Side by side -/

/-- Two gateways, one after a history and one after what is left of it. -/
structure Aligned (start : Gateway S) (absent : S.Party) (ρ : Renaming) (run : List (Happening S))
    (g g' : Gateway S) : Prop where
  without : ∃ owners owners', Without absent ρ owners owners' g g'
  queries : g'.queries.next = start.othersCount absent (·.queries.next) run g + 1
  sessions : g'.sessions.next = start.othersCount absent (·.sessions.next) run g + 1

variable {run later earlier : List (Happening S)} {call : Call S}

/-- A call of the client alters the first gateway only. -/
theorem Aligned.deleted (h : start.holdings.Tidy owners)
    (halign : Aligned start absent ρ run (start.history earlier) g') (hrun : run = later ++ .called call :: earlier)
    (hcall : absent ∈ (start.history earlier).ledger.addressees call) :
    Aligned start absent ρ run (start.history (.called call :: earlier)) g' := by
  obtain ⟨owners₁, owners₁', hwithout⟩ := halign.without
  have hof : (Happening.called call).isOf absent (start.history earlier) = true := decide_eq_true hcall
  obtain ⟨owners₂, hdeleted⟩ := hwithout.deleted hcall
  subst hrun
  refine ⟨⟨owners₂, owners₁', hdeleted⟩, ?_, ?_⟩
  · rw [halign.queries, (counts_queries h).othersCount_cons, hof]
    rfl
  · rw [halign.sessions, (counts_sessions h).othersCount_cons, hof]
    rfl

/-- A call of somebody else has the same outcome on both, up to a panic, and alters both. -/
theorem Aligned.kept (h : start.holdings.Tidy owners)
    (halign : Aligned start absent (renumbering h absent run) run (start.history earlier) g')
    (hrun : run = later ++ .called call :: earlier) (hreap : ∀ asOf, call ≠ .reap asOf)
    (hcall : absent ∉ (start.history earlier).ledger.addressees call) :
    SameOutcome (renumbering h absent run)
        (Reply.Same (renumbering h absent run) (start.history earlier).metrics.counters g'.metrics.counters)
        (call.op.run (start.history earlier)).1 ((call.rename (renumbering h absent run)).op.run g').1 ∧
      Aligned start absent (renumbering h absent run) run (start.history (.called call :: earlier))
        ((call.rename (renumbering h absent run)).op.run g').2 := by
  obtain ⟨owners₁, owners₁', hwithout⟩ := halign.without
  have hof : (Happening.called call).isOf absent (start.history earlier) = false := decide_eq_false hcall
  subst hrun
  refine (hwithout.kept hreap hcall ?_ ?_).imp id ?_
  -- a number that the call gives out is counted, so the other gateway gives its rank out
  · intro hgiven
    have hothers := (counts_queries h).givenToOthers_eq absent later (.called call) (Nat.le_refl _) hgiven
    rw [hof] at hothers
    rw [halign.queries]
    exact congrArg (fun n => QueryId.mk (n + 1)) (if_pos hothers)
  · intro hgiven
    have hothers := (counts_sessions h).givenToOthers_eq absent later (.called call) (Nat.le_refl _) hgiven
    rw [hof] at hothers
    rw [halign.sessions]
    exact congrArg (fun n => SessionId.mk (n + 1)) (if_pos hothers)
  · rintro ⟨hafter, hqueries, hsessions⟩
    exact ⟨hafter, (counts_queries h).othersCount_kept later hof halign.queries hqueries,
      (counts_sessions h).othersCount_kept later hof halign.sessions hsessions⟩

/-- What gives no number out may happen to both. -/
theorem Aligned.both (h : start.holdings.Tidy owners) {happening : Happening S}
    (halign : Aligned start absent ρ run (start.history earlier) g') (hrun : run = later ++ happening :: earlier)
    (hof : happening.isOf absent (start.history earlier) = false)
    (hleft : (happening.on (start.history earlier)).numbers = (start.history earlier).numbers)
    (hright : ((happening.rename ρ).on g').numbers = g'.numbers)
    (hwithout : ∀ owners owners', Without absent ρ owners owners' (start.history earlier) g' →
      Without absent ρ owners owners' (happening.on (start.history earlier)) ((happening.rename ρ).on g')) :
    Aligned start absent ρ run (start.history (happening :: earlier)) ((happening.rename ρ).on g') := by
  obtain ⟨owners₁, owners₁', hbefore⟩ := halign.without
  subst hrun
  refine ⟨⟨owners₁, owners₁', hwithout _ _ hbefore⟩, ?_, ?_⟩
  · refine (counts_queries h).othersCount_kept later hof halign.queries ?_
    have hleft : (start.history (happening :: earlier)).queries.next = _ := congrArg Prod.fst hleft
    have hright : ((happening.rename ρ).on g').queries.next = _ := congrArg Prod.fst hright
    rw [hleft, hright]
    exact Nat.add_comm _ _
  · refine (counts_sessions h).othersCount_kept later hof halign.sessions ?_
    have hleft : (start.history (happening :: earlier)).sessions.next = _ := congrArg Prod.snd hleft
    have hright : ((happening.rename ρ).on g').sessions.next = _ := congrArg Prod.snd hright
    rw [hleft, hright]
    exact Nat.add_comm _ _

/-- Both gateways stay side by side. -/
theorem aligned_history (h : start.holdings.Tidy owners)
    (hstart : Aligned start absent (renumbering h absent run) run start start) (earlier later : List (Happening S))
    (hrun : run = later ++ earlier) :
    Aligned start absent (renumbering h absent run) run (start.history earlier)
      (start.remainder absent (renumbering h absent run) earlier) := by
  -- the renumbering is that of the whole history, so the induction is on its beginning
  induction earlier generalizing later with
  | nil => exact hstart
  | cons happening earlier ih =>
    have halign := ih (later ++ [happening]) (by simp [hrun])
    rw [remainder_cons]
    cases hof : happening.isOf absent (start.history earlier) with
    | true =>
      rw [if_pos rfl]
      cases happening with
      | called call => exact halign.deleted h hrun (of_decide_eq_true hof)
      | passed millis => cases hof
      | stood client standing => cases hof
    | false =>
      rw [if_neg Bool.false_ne_true]
      cases happening with
      | passed millis =>
        exact halign.both h hrun rfl rfl rfl fun _ _ hwithout =>
          { hwithout with worlds := hwithout.worlds.passed millis }
      | stood client standing =>
        exact halign.both h hrun rfl rfl rfl fun _ _ hwithout =>
          { hwithout with worlds := hwithout.worlds.stood client standing }
      | called call =>
        by_cases hreap : ∃ asOf, call = .reap asOf
        · obtain ⟨asOf, rfl⟩ := hreap
          have hreaped : ∀ k : Gateway S, Happening.on (.called (.reap asOf)) k = ((reap asOf).run k).2 :=
            run_call_reap asOf
          refine halign.both h hrun hof ?_ ?_ fun _ _ hwithout => ?_
          · rw [hreaped]
            exact numbers_reap asOf _
          · exact (congrArg numbers (hreaped _)).trans (numbers_reap asOf _)
          · change Without _ _ _ _ _ (Happening.on (.called (.reap asOf)) _)
            rw [hreaped, hreaped]
            exact hwithout.reap asOf
        · exact (halign.kept h hrun (fun asOf hasOf => hreap ⟨asOf, hasOf⟩) (of_decide_eq_false hof)).2

/-! ## From the beginning -/

/-- A gateway in a world, with whatever is in its stores, before its first call. -/
def opening (vendor : S.Party) (config : GatewayConfig) (metrics : Metrics) (i : Intrusion S) (world : World S) :
    Gateway S :=
  ((fresh vendor config metrics).altered i).inWorld world

theorem tidy_opening (vendor : S.Party) (config : GatewayConfig) (metrics : Metrics) (i : Intrusion S)
    (world : World S) :
    (opening vendor config metrics i world).holdings.Tidy ⟨fun _ => vendor, fun _ => vendor⟩ :=
  tidy_altered (tidy_fresh vendor config metrics) i

/-- Both gateways begin alike. -/
theorem aligned_opening (vendor : S.Party) (config : GatewayConfig) (metrics : Metrics) (i : Intrusion S)
    {world : World S} (hquiet : world.Quiet) (absent : S.Party) (ρ : Renaming) (run : List (Happening S)) :
    Aligned (opening vendor config metrics i world) absent ρ run (opening vendor config metrics i world)
      (opening vendor config metrics i world) := by
  have htidy := tidy_opening vendor config metrics i world
  have hwithout : Without absent ρ _ _ (opening vendor config metrics i world)
      (opening vendor config metrics i world) :=
    { left := htidy
      right := htidy
      matched := ⟨fun _ _ => rfl, rfl, rfl⟩
      noQueries := fun _ hq => (List.not_mem_nil hq).elim
      noSessions := fun _ hs => (List.not_mem_nil hs).elim
      worlds := .refl hquiet
      terms := rfl }
  refine ⟨⟨_, _, hwithout⟩, ?_, ?_⟩
  · rw [(counts_queries htidy).othersCount_start]
    rfl
  · rw [(counts_sessions htidy).othersCount_start]
    rfl

/-- Nobody is affected by what a client does.  Calls addressed to the client leave the accounts of all others as
they are, whatever comes of them and whatever others have done to the stores.  In a history without failures and
without a cache, deleting them leaves every account of the others as it is, but for a renaming of queries and
sessions, and every answer to them; except that a caller gets no answer on a side where a total that all clients
share runs over with it. -/
theorem clients_isolated (vendor : S.Party) (config : GatewayConfig) (metrics : Metrics) (absent : S.Party) :
    (∀ (episodes : List (Episode S)) (m : Move S), let g := (fresh vendor config metrics).live episodes
      absent ∈ g.ledger.addressees m.call → ∀ client ≠ absent,
        (g.after m).2.ledger.account client = g.ledger.account client) ∧
    ∀ (i : Intrusion S) (world : World S), world.Quiet → ∀ run : List (Happening S),
      let start := opening vendor config metrics i world
      ∃ ρ : Renaming,
        (∀ later earlier, run = later ++ earlier → ∀ client ≠ absent,
          (start.remainder absent ρ earlier).ledger.account client =
            ((start.history earlier).ledger.account client).rename ρ) ∧
        ∀ later call earlier, run = later ++ .called call :: earlier → (∀ asOf, call ≠ .reap asOf) →
          absent ∉ (start.history earlier).ledger.addressees call →
          SameOutcome ρ
            (Reply.Same ρ (start.history earlier).metrics.counters
              (start.remainder absent ρ earlier).metrics.counters)
            (call.op.run (start.history earlier)).1
            ((call.rename ρ).op.run (start.remainder absent ρ earlier)).1 := by
  refine ⟨?_, ?_⟩
  · intro episodes m g hcall client hne
    obtain ⟨owners, htidy⟩ := tidy_live vendor config metrics episodes
    exact (since_addressed (g := g.inWorld m.world) htidy hcall).account hne
  · intro i world hquiet run start
    have htidy := tidy_opening vendor config metrics i world
    have haligned := fun earlier later => aligned_history htidy
      (aligned_opening vendor config metrics i hquiet absent (renumbering htidy absent run) run) earlier later
    refine ⟨renumbering htidy absent run, ?_, ?_⟩
    · intro later earlier hrun client hne
      obtain ⟨_, _, hwithout⟩ := (haligned earlier later hrun).without
      exact hwithout.account hne
    · intro later call earlier hrun hreap hcall
      have hbefore := haligned earlier (later ++ [.called call]) (by simp [hrun])
      exact (hbefore.kept htidy hrun hreap hcall).1

/-- The client 2 opens a session before the client 1 does, who gets the number 2 then.  Without the client 2 it
would have got the number 1, and all else would be as it is. -/
theorem clients_isolated_sample :
    let standing : ChainSnapshot := { collateral := 1000, subscribedVendorCount := 1, subscribed := true }
    let standings : Table Scheme.plain.Party ChainSnapshot := ⟨[(1, standing), (2, standing)]⟩
    let stores : Intrusion Scheme.plain := ⟨{}, VoucherStore.filed_empty, {}, {}, {}⟩
    let start := opening (S := Scheme.plain) 9 Sample.config {} stores (.answering standings)
    let first : Happening Scheme.plain := .called (.acceptSession ⟨2, 9, 1, 100, true⟩)
    let second : Happening Scheme.plain := .called (.acceptSession Sample.voucher)
    (start.history [second, first]).sessions.rows.map (fun s => (s.id, s.client)) = [(⟨1⟩, 2), (⟨2⟩, 1)] ∧
      ∃ ρ : Renaming, ρ.session ⟨2⟩ = ⟨1⟩ ∧
        (start.history [second]).ledger.account 1 = ((start.history [second, first]).ledger.account 1).rename ρ := by
  intro standing standings stores start first second
  obtain ⟨ρ, haccounts, -⟩ := (clients_isolated (S := Scheme.plain) 9 Sample.config {} 2).2 stores _
    (World.quiet_answering standings) [second, first]
  have hkept : second.isOf (2 : Scheme.plain.Party) (start.history [first]) = false := by decide +kernel
  have hdeleted : first.isOf (2 : Scheme.plain.Party) start = true := by decide +kernel
  have hremainder : start.remainder 2 ρ [second, first] = start.history [second] :=
    (remainder_cons start 2 ρ second [first]).trans <| (if_neg (by rw [hkept]; exact Bool.false_ne_true)).trans <|
      congrArg second.on ((remainder_cons start 2 ρ first []).trans (if_pos hdeleted))
  have haccount := haccounts [] [second, first] rfl 1 (by decide)
  rw [hremainder] at haccount
  have hbefore : ((start.history [second, first]).ledger.account 1).sessions.map (·.id) = [⟨2⟩] := by decide +kernel
  have hafter : ((start.history [second]).ledger.account 1).sessions.map (·.id) = [⟨1⟩] := by decide +kernel
  refine ⟨by decide +kernel, ρ, ?_, haccount⟩
  have hrenamed : (((start.history [second, first]).ledger.account 1).sessions.map (·.id)).map ρ.session = [⟨1⟩] := by
    rw [← hafter, haccount, Account.rename, List.map_map, List.map_map]
    rfl
  rw [hbefore] at hrenamed
  exact List.singleton_inj.1 hrenamed

/-- Both clients reserve a query, and the client 1 settles its own for the largest amount.  When the client 2
settles the other one for fifty atoms, its call panics.  Without the client 1 it would get a receipt. -/
theorem totals_shared :
    let standing : ChainSnapshot := { collateral := 1000, subscribedVendorCount := 1, subscribed := true }
    let standings : Table Scheme.plain.Party ChainSnapshot := ⟨[(1, standing), (2, standing)]⟩
    let stores : Intrusion Scheme.plain := ⟨{}, VoucherStore.filed_empty, {}, {}, {}⟩
    let start := opening (S := Scheme.plain) 9 Sample.perMillisecond {} stores (.answering standings)
    let run : List (Happening Scheme.plain) :=
      [.called (.settleQuery ⟨1⟩ ⟨18446744073709551615, 0⟩), .called (.acceptQuery ⟨2⟩ 50),
        .called (.acceptQuery ⟨1⟩ 50), .called (.acceptSession ⟨2, 9, 1, 100, true⟩),
        .called (.acceptSession Sample.voucher)]
    let own : List (Happening Scheme.plain) :=
      [.called (.acceptQuery ⟨1⟩ 50), .called (.acceptSession ⟨2, 9, 1, 100, true⟩)]
    let settle : QueryId → Call Scheme.plain := fun id => .settleQuery id ⟨50, 0⟩
    ((settle ⟨2⟩).op.run (start.history run)).1 = .ok (.panicked .overflow) ∧
      ∃ receipt : Receipt Scheme.plain, receipt.query = ⟨1⟩ ∧ receipt.actual = 50 ∧
        ((settle ⟨1⟩).op.run (start.history own)).1 = .ok (.receipt receipt) := by
  intro standing standings stores start run own settle
  refine ⟨eq_of_panic? (by decide +kernel), ?_⟩
  obtain ⟨receipt, hreceipt⟩ : ∃ receipt, receipt? ((settle ⟨1⟩).op.run (start.history own)).1 = some receipt :=
    Option.isSome_iff_exists.1 (by decide +kernel)
  have hfields : ((receipt? ((settle ⟨1⟩).op.run (start.history own)).1).map fun r => (r.query, r.actual)) =
      some (⟨1⟩, 50) := by decide +kernel
  rw [hreceipt] at hfields
  obtain ⟨hquery, hactual⟩ := Prod.mk.inj (Option.some.inj hfields)
  exact ⟨receipt, hquery, hactual, eq_of_receipt? hreceipt⟩

end Gateway
end VoucherGateway
