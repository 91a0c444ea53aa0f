import VoucherGateway.Proofs.Clients.Passes

/-!
# Episodes — a gateway whose stores are open to others

Between the calls of a gateway, whoever else has its stores or its settlement queue may do with them as they
like: record vouchers, mark them, change costs, hand over or take back.  Such a gateway can meet any kind of
contradiction.  Of the voucher store only this much is asked, that each voucher is filed under its own client;
the operations of the store keep it so (`Filed.ends_insert`, `Filed.ends_markSpent`).  What happens to a gateway
is listed newest first.

Main statement: whatever happens, what stands under the name of a client is the client's own (`tidy_live`).
-/

namespace VoucherGateway

variable {S : Scheme}

namespace VoucherStore

/-- Each voucher is filed under its own client. -/
def Filed (s : VoucherStore S) : Prop := ∀ client vendor, ∀ v ∈ (s.chain client vendor).vouchers, v.client = client

theorem filed_empty : ({} : VoucherStore S).Filed := fun _ _ _ hv => (List.not_mem_nil hv).elim

theorem Filed.setChain {s : VoucherStore S} (h : s.Filed) {client vendor : S.Party} {c : VoucherChain S}
    (hc : ∀ v ∈ c.vouchers, v.client = client) : (s.setChain client vendor c).Filed := by
  intro client' vendor' v hv
  rw [chain_setChain] at hv
  split at hv
  · next heq =>
    obtain ⟨rfl, rfl⟩ := Prod.mk.inj heq
    exact hc v hv
  · exact h client' vendor' v hv

/-- A call to the store that comes to nothing leaves the files alone. -/
theorem Filed.ends_check {s : VoucherStore S} (h : s.Filed) (kind : VoucherCall) :
    Ends (fun _ s' => s'.Filed) (fun _ s' => s'.Filed) ((check kind).run s) := by
  have same : ∀ {s' : VoucherStore S}, s'.chains = s.chains → s'.Filed := by
    intro s' hs client vendor v hv
    unfold chain at hv
    rw [hs] at hv
    exact h client vendor v hv
  exact (VoucherStore.ends_check kind s).mono (fun _ _ hs => same hs.1) fun _ _ hs => same hs.1.1

/-- Vouchers are filed so when they are inserted. -/
theorem Filed.ends_insert {s : VoucherStore S} (h : s.Filed) (v : Voucher S) :
    Ends (fun _ s' => s'.Filed) (fun _ s' => s'.Filed) ((insert v).run s) := by
  refine Action.ends_bind (h.ends_check .insert) fun _ s' hs => ?_
  rw [Action.run_get_bind]
  cases hc : (s'.chain v.client v.vendor).insert v with
  | error e => exact hs
  | ok r => exact hs.setChain (VoucherChain.client_insert hc rfl (hs v.client v.vendor))

/-- And they stay so when they are marked. -/
theorem Filed.ends_markSpent {s : VoucherStore S} (h : s.Filed) (id : VoucherId S) :
    Ends (fun _ s' => s'.Filed) (fun _ s' => s'.Filed) ((markSpent id).run s) := by
  refine Action.ends_bind (h.ends_check .markSpent) fun _ s' hs => ?_
  rw [Action.run_get_bind]
  cases hc : (s'.chain id.client id.vendor).markSpent id with
  | error e => exact hs
  | ok c =>
    have hsame := VoucherChain.vouchers_markSpent hc
    exact hs.setChain (hsame ▸ hs id.client id.vendor)

end VoucherStore

/-- What others make of the stores and the settlement queue of a gateway. -/
structure Intrusion (S : Scheme) where
  vouchers : VoucherStore S
  filed : vouchers.Filed
  unmarked : CostStore S
  balances : CostStore S
  settlement : Settlement S

/-- Something that happens to a gateway. -/
inductive Episode (S : Scheme)
  | called (m : Move S)
  | altered (i : Intrusion S)

namespace Gateway

/-- The gateway after others were at its stores. -/
def altered (g : Gateway S) (i : Intrusion S) : Gateway S :=
  { g with
    vouchers := i.vouchers, unmarked := i.unmarked, balances := i.balances, settlement := i.settlement }

/-- The gateway after all that has happened to it. -/
def live (start : Gateway S) : List (Episode S) → Gateway S
  | [] => start
  | .called m :: earlier => ((live start earlier).after m).2
  | .altered i :: earlier => (live start earlier).altered i

variable {owners : Owners S} {g : Gateway S}

theorem tidy_fresh (vendor : S.Party) (config : GatewayConfig) (metrics : Metrics) :
    (fresh vendor config metrics).holdings.Tidy ⟨fun _ => vendor, fun _ => vendor⟩ where
  filed _ _ _ hv := (List.not_mem_nil hv).elim
  pending _ _ hp := (Option.some_ne_none _ hp.symm).elim
  numbered := ⟨List.nodup_nil, fun _ hq => (List.not_mem_nil hq).elim⟩
  queries _ hq := (List.not_mem_nil hq).elim
  placed _ hq := (List.not_mem_nil hq).elim
  regular _ hq := (List.not_mem_nil hq).elim
  below _ hs := (List.not_mem_nil hs).elim
  sessions _ hs := (List.not_mem_nil hs).elim

theorem tidy_altered (h : g.holdings.Tidy owners) (i : Intrusion S) : (g.altered i).holdings.Tidy owners :=
  { h with filed := i.filed }

/-- Calls leave a tidy ledger. -/
theorem tidy_after (h : g.holdings.Tidy owners) (m : Move S) : ∃ owners, (g.after m).2.holdings.Tidy owners :=
  (orderly_call (g := g.inWorld m.world) h m.call).1

/-- Whatever happens, what stands under the name of a client is the client's own. -/
theorem tidy_live (vendor : S.Party) (config : GatewayConfig) (metrics : Metrics) (episodes : List (Episode S)) :
    ∃ owners, ((fresh vendor config metrics).live episodes).holdings.Tidy owners := by
  induction episodes with
  | nil => exact ⟨_, tidy_fresh vendor config metrics⟩
  | cons episode earlier ih =>
    obtain ⟨owners, h⟩ := ih
    cases episode with
    | called m => exact tidy_after h m
    | altered i => exact ⟨owners, tidy_altered h i⟩

end Gateway
end VoucherGateway
