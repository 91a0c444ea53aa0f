import Mathlib.Data.List.Perm.Subperm
import VoucherGateway.Proofs.Run.Charges

/-!
# Halts — why clients are halted in a run

A client is halted when a cost does not fit on top of what is unmarked, and for nothing else.  What is
unmarked was charged, so the costs of all the client's queries together do not fit either
(`charged_add_cost_le`).  Main statement: no operation meets any other contradiction, and a client whose costs
fit together is never halted.
-/

namespace VoucherGateway

variable {S : Scheme}

/-- What matches other queries by number, client and worth is worth no more than they are. -/
theorem sumFor_le_of_matched {c : S.Party} {w : Query S → Nat} {xs ys : List (Query S)}
    (hn : (xs.map (·.id)).Nodup)
    (h : ∀ x ∈ xs, ∃ y ∈ ys, y.id = x.id ∧ y.client = x.client ∧ w y = w x) :
    sumFor c w xs ≤ sumFor c w ys := by
  -- numbers make the two lists comparable, even where queries are worth the same
  let worth (q : Query S) : QueryId × Nat := (q.id, if q.client = c then w q else 0)
  have hnodup : (xs.map worth).Nodup := by
    refine List.Nodup.of_map Prod.fst ?_
    rw [List.map_map]
    exact hn
  have hsub : xs.map worth ⊆ ys.map worth := by
    intro a ha
    obtain ⟨x, hx, rfl⟩ := List.mem_map.1 ha
    obtain ⟨y, hy, hid, hclient, hw⟩ := h x hx
    exact List.mem_map.2 ⟨y, hy, by simp only [worth, hid, hclient, hw]⟩
  obtain ⟨zs, hperm, hzs⟩ := List.subperm_of_subset hnodup hsub
  have hsum := (hperm.map Prod.snd).sum_nat
  have hle : (zs.map Prod.snd).sum ≤ ((ys.map worth).map Prod.snd).sum :=
    (hzs.map Prod.snd).sum_le_sum fun _ _ => Nat.zero_le _
  rw [hsum, List.map_map, List.map_map] at hle
  rw [sumFor_eq, sumFor_eq]
  exact hle

/-- No call permits a halt. -/
theorem Call.Permits.not_halted {config : GatewayConfig} {call : Call S} {client : S.Party} {reason : String}
    (h : call.Permits config (.halted client reason)) : False := by
  rcases h.cases with h | ⟨_, _, _, -, he⟩ | ⟨_, _, -, he⟩ | ⟨_, _, -, he⟩
  · exact h
  · cases he
  · cases he
  · cases he

/-- Nobody is halted by entries that are no halts. -/
theorem Ledger.Trail.unhalted {allowed : Entry S → Prop} {L M : Ledger S} (ht : Ledger.Trail allowed L M)
    (hne : ∀ client reason, ¬ allowed (.halted client reason)) {c : S.Party} (h : L.halted.get? c = none) :
    M.halted.get? c = none := by
  induction ht with
  | refl => exact h
  | tail _ hstep ih =>
    rename_i N _ _
    rcases hstep with ⟨e, he, -, rfl⟩
    cases e with
    | halted client reason => exact absurd he (hne client reason)
    | resumed client =>
      have hget := Table.get?_erase N.halted client c
      rw [ih, ite_self] at hget
      exact hget
    | _ => exact ih

namespace Gateway

/-- A move halts a client only for a cost of one of its queries that does not fit. -/
theorem halted_after {g : Gateway S} {m : Move S} {c : S.Party} (hL : g.ledger.Sound)
    (hbefore : g.ledger.halted.get? c = none) (hafter : (g.after m).2.ledger.halted.get? c ≠ none) :
    (∃ id usage, m.call = .settleQuery id usage) ∧
      ∃ e, (g.after m).1 = .error e ∧ (g.after m).2.ledger.Overdrawn c e := by
  obtain ⟨N, ht, ⟨hN, -⟩ | ⟨client, e, hcall, hover, hout, hN⟩⟩ := conduct g m hL
  · rw [hN] at hafter
    exact absurd (ht.unhalted (fun _ _ h => h.not_halted) hbefore) hafter
  · -- the only halt is the one for the cost, which may be another client's
    have hN' := ht.unhalted (fun _ _ h => h.not_halted) hbefore
    have hget := Table.get?_put N.halted client c e.message
    rw [hN'] at hget
    by_cases hc : c = client
    · subst hc
      refine ⟨hcall, e, hout, ?_⟩
      rw [hN]
      exact hover
    · rw [if_neg hc] at hget
      rw [hN] at hafter
      exact absurd hget hafter

section Run

variable {start : Gateway S}

/-- What was charged and a cost that is not charged yet are among the costs that were fixed. -/
theorem charged_add_cost_le (hstart : start.Blank) (ms : List (Move S))
    {q : Query S} (hq : q ∈ (start.play ms).queries.rows) (hact : q.actual.isSome = true)
    (hch : q.charged = false) :
    sumFor q.client Query.cost (start.begun (·.charged) ms) + q.cost ≤
      sumFor q.client Query.cost (start.begun (·.actual.isSome) ms) := by
  have same_cost : ∀ b x : Query S, b.Becomes x → b.actual.isSome = true → x.cost = b.cost := by
    intro b x hb hsome
    unfold Query.cost
    rcases hb.actual with hnone | hsame
    · rw [hnone] at hsome
      cases hsome
    · rw [hsame]
  have hnodup : ((q :: start.begun (·.charged) ms).map (·.id)).Nodup := by
    refine List.nodup_cons.2 ⟨?_, nodup_begun_of_kept hstart (fun _ _ hb h => hb.charged h) ms⟩
    intro hin
    obtain ⟨b, hb, hid⟩ := List.mem_map.1 hin
    have hkept := kept_of_begun hstart (fun _ _ hb h => hb.charged h) ms b hb q hq hid.symm
    rw [hch] at hkept
    cases hkept
  have hmatched : ∀ x ∈ q :: start.begun (·.charged) ms, ∃ y ∈ start.begun (·.actual.isSome) ms,
      y.id = x.id ∧ y.client = x.client ∧ y.cost = x.cost := by
    intro x hx
    -- whatever was charged had its cost fixed before, and `q` has its cost by assumption
    have hfrom : ∃ y ∈ start.begun (·.actual.isSome) ms, y.actual.isSome = true ∧ y.Becomes x := by
      rcases List.mem_cons.1 hx with rfl | hx
      · exact begun_of_mem hstart ms x hq hact
      · exact (begun_of_imp hstart (fun _ hs h => hs.charged_priced h) ms x hx).2.2
    obtain ⟨y, hy, hsome, hb⟩ := hfrom
    exact ⟨y, hy, hb.id.symm, hb.client.symm, (same_cost y x hb hsome).symm⟩
  calc
    sumFor q.client Query.cost (start.begun (·.charged) ms) + q.cost =
        sumFor q.client Query.cost (q :: start.begun (·.charged) ms) := by
      simp [sumFor, Nat.add_comm]
    _ ≤ sumFor q.client Query.cost (start.begun (·.actual.isSome) ms) :=
      sumFor_le_of_matched hnodup hmatched

/-- A cost that does not fit is one of costs that do not fit together. -/
theorem overdrawn_costs (hstart : start.Blank) {c : S.Party} {e : Error}
    (ms : List (Move S)) (hover : (start.play ms).ledger.Overdrawn c e) :
    Atoms.top.toNat < sumFor c Query.cost (start.begun (·.actual.isSome) ms) := by
  obtain ⟨q, hq, cost, rfl, hact, hch, hlt, -⟩ := hover
  have hcost : q.cost = cost.toNat := by simp [Query.cost, hact]
  calc
    Atoms.top.toNat < ((start.play ms).ledger.unmarkedOf q.client).toNat + cost.toNat := hlt
    _ ≤ (start.play ms).ledger.books q.client + q.cost := by
      rw [hcost]
      exact Nat.add_le_add_right (Nat.le_add_right _ _) _
    _ = sumFor q.client Query.cost (start.begun (·.charged) ms) + q.cost := by rw [charged_play hstart]
    _ ≤ sumFor q.client Query.cost (start.begun (·.actual.isSome) ms) :=
      charged_add_cost_le hstart ms hq (by simp [hact]) hch

/-- A client whose costs fit together is not halted. -/
theorem not_halted_of_fits (hstart : start.Blank) {c : S.Party} (ms : List (Move S))
    (hfits : sumFor c Query.cost (start.begun (·.actual.isSome) ms) < 2 ^ 64) :
    (start.play ms).ledger.halted.get? c = none := by
  induction ms with
  | nil => exact hstart.running c
  | cons m earlier ih =>
    have hearlier := ih (Nat.lt_of_le_of_lt (sumFor_begun_suffix (List.suffix_cons m earlier)) hfits)
    by_contra hhalted
    obtain ⟨-, e, -, hover⟩ := halted_after (m := m) (sound_play hstart earlier) hearlier hhalted
    have hlt := overdrawn_costs hstart (m :: earlier) hover
    rw [Atoms.toNat_top] at hlt
    omega

end Run

/-- In every run the only contradiction that an operation meets is a cost that does not fit on top of the
unmarked cost, out of a settlement, and only this halts a client.  A client whose costs fit together is not
halted at any moment of the run. -/
theorem no_false_halt (vendor : S.Party) (config : GatewayConfig) (metrics : Metrics) (ms : List (Move S)) :
    let start := fresh vendor config metrics
    let g := start.play ms
    (∀ m v, (g.after m).1 = .error (.violation v) →
      (∃ id usage, m.call = .settleQuery id usage) ∧ ∃ client cost,
        v = .overflow .unmarked (S.partyText client) ((g.after m).2.unmarked.cost client) cost ∧
        2 ^ 64 ≤ ((g.after m).2.unmarked.cost client).toNat + cost.toNat) ∧
    (∀ m client, g.gate.isHalted client = false → (g.after m).2.gate.isHalted client = true →
      ∃ cost, (g.after m).1 = .error (.violation
        (.overflow .unmarked (S.partyText client) ((g.after m).2.unmarked.cost client) cost))) ∧
    (∀ client, sumFor client Query.cost (start.begun (·.actual.isSome) ms) < 2 ^ 64 →
      ∀ earlier, earlier <:+ ms → (start.play earlier).gate.isHalted client = false) := by
  intro start g
  have hstart := blank_fresh (S := S) vendor config metrics
  have hL := sound_play hstart ms
  have halted_iff : ∀ (g : Gateway S) (c : S.Party),
      g.gate.isHalted c = false ↔ g.ledger.halted.get? c = none :=
    fun _ _ => Option.isSome_eq_false_iff.trans Option.isNone_iff_eq_none
  refine ⟨?_, ?_, ?_⟩
  · intro m v hv
    obtain ⟨N, -, ⟨-, hne⟩ | ⟨client, e, hcall, hover, hout, hN⟩⟩ := conduct g m hL
    · exact absurd hv (hne v)
    · obtain ⟨q, -, cost, -, -, -, hlt, rfl⟩ := hover
      have hunmarked : (g.after m).2.unmarked.cost client = N.unmarkedOf client :=
        congrArg (fun M : Ledger S => M.unmarkedOf client) hN
      rw [hout] at hv
      obtain rfl := Error.violation.inj (Except.error.inj hv)
      rw [Atoms.toNat_top] at hlt
      exact ⟨hcall, client, cost, by rw [hunmarked], by rw [hunmarked]; omega⟩
  · intro m client hbefore hafter
    have hafter : (g.after m).2.ledger.halted.get? client ≠ none := by
      intro hnone
      rw [(halted_iff _ client).2 hnone] at hafter
      cases hafter
    have hbefore := (halted_iff g client).1 hbefore
    obtain ⟨-, e, hout, q, -, cost, -, -, -, -, rfl⟩ := halted_after hL hbefore hafter
    exact ⟨cost, hout⟩
  · intro client hfits earlier hsuffix
    refine (halted_iff _ client).2 (not_halted_of_fits hstart earlier ?_)
    exact Nat.lt_of_le_of_lt (sumFor_begun_suffix hsuffix) hfits

end Gateway
end VoucherGateway
