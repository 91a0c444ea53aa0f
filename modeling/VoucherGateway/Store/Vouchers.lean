import VoucherGateway.Store.Outage
import VoucherGateway.Voucher.Basic

/-!
# Voucher store — accepted vouchers and which of them are spent

The store keeps one chain per client and vendor: vouchers with consecutive nonces, oldest first, and the
nonces marked spent.  A chain may start at any nonce; afterwards only the next one is taken.
-/

namespace VoucherGateway

variable {S : Scheme}

/-- The vouchers of one client for one vendor. -/
structure VoucherChain (S : Scheme) where
  /-- Accepted vouchers, oldest first. -/
  vouchers : List (Voucher S) := []
  /-- Nonces marked spent. -/
  spent : List UInt64 := []

namespace VoucherChain

/-- The vouchers not marked spent, oldest first. -/
def unspent (c : VoucherChain S) : List (Voucher S) := c.vouchers.filter fun v => !c.spent.contains v.nonce

/-- The nonce of the newest voucher. -/
def latest? (c : VoucherChain S) : Option UInt64 := c.vouchers.getLast?.map (·.nonce)

/-- The chain with a voucher that follows the newest one.  Older nonces are turned down, gaps are refused. -/
def insert (c : VoucherChain S) (v : Voucher S) : Except Error (Bool × VoucherChain S) :=
  match c.latest? with
  | none => .ok (true, { c with vouchers := c.vouchers ++ [v] })
  | some latest =>
    if v.nonce ≤ latest then .ok (false, c)
    -- `latest` is no largest word here, because a larger one was given
    else if v.nonce ≠ latest + 1 then
      .error (.violation (.nonceSequence (S.partyText v.client)
        s!"insert of nonce {v.nonce} after latest {latest}"))
    else .ok (true, { c with vouchers := c.vouchers ++ [v] })

/-- The chain with a nonce marked spent.  Only recorded vouchers can be spent, and only once. -/
def markSpent (c : VoucherChain S) (id : VoucherId S) : Except Error (VoucherChain S) :=
  if c.vouchers.any (·.nonce = id.nonce) then
    if c.spent.contains id.nonce then .error (.violation (.doubleSpend id.text))
    else .ok { c with spent := c.spent ++ [id.nonce] }
  else
    .error (.violation (.nonceSequence (S.partyText id.client)
      s!"mark_spent of unknown nonce {id.nonce}"))

end VoucherChain

/-- The kinds of calls to the voucher store. -/
inductive VoucherCall
  | latestNonce
  | insert
  | isSpent
  | markSpent
  | unspent
  deriving DecidableEq, Repr

/-- The name of a kind of call. -/
def VoucherCall.text : VoucherCall → String
  | .latestNonce => "latest_nonce"
  | .insert => "insert"
  | .isSpent => "is_spent"
  | .markSpent => "mark_spent"
  | .unspent => "unspent_vouchers_for"

/-- Chains by client and vendor. -/
structure VoucherStore (S : Scheme) where
  chains : Table (S.Party × S.Party) (VoucherChain S) := {}
  outage : Outage VoucherCall := {}
  /-- The newest nonce that the store reports whatever it holds; for trying out a store gone wrong. -/
  misreported : Option UInt64 := none

namespace VoucherStore

/-- A step on the voucher store. -/
abbrev Act (S : Scheme) (α : Type) := Action (VoucherStore S) Error α

/-- The chain of a client for a vendor. -/
def chain (s : VoucherStore S) (client vendor : S.Party) : VoucherChain S :=
  (s.chains.get? (client, vendor)).getD {}

/-- Replaces the chain of a client for a vendor. -/
def setChain (s : VoucherStore S) (client vendor : S.Party) (c : VoucherChain S) : VoucherStore S :=
  { s with chains := s.chains.put (client, vendor) c }

/-- Fails if the store does not answer a call of a kind. -/
def check (kind : VoucherCall) : Act S Unit :=
  Action.within (·.outage) (fun o s => { s with outage := o })
    (Outage.check "voucher store" VoucherCall.text kind)

/-- The nonce of the newest voucher. -/
def latestNonce (client vendor : S.Party) : Act S (Option UInt64) := do
  check .latestNonce
  let s ← get
  pure (s.misreported.or (s.chain client vendor).latest?)

/-- Records a voucher; `false` if its nonce is not newer than the newest one. -/
def insert (v : Voucher S) : Act S Bool := do
  check .insert
  let s ← get
  let (added, c) ← Action.give ((s.chain v.client v.vendor).insert v)
  set (s.setChain v.client v.vendor c)
  pure added

/-- Whether a voucher is marked spent. -/
def isSpent (id : VoucherId S) : Act S Bool := do
  check .isSpent
  let s ← get
  pure ((s.chain id.client id.vendor).spent.contains id.nonce)

/-- Marks a voucher spent. -/
def markSpent (id : VoucherId S) : Act S Unit := do
  check .markSpent
  let s ← get
  let c ← Action.give ((s.chain id.client id.vendor).markSpent id)
  set (s.setChain id.client id.vendor c)

/-- The vouchers not marked spent, oldest first. -/
def unspent (client vendor : S.Party) : Act S (List (Voucher S)) := do
  check .unspent
  let s ← get
  pure (s.chain client vendor).unspent

theorem chain_setChain (s : VoucherStore S) (client vendor client' vendor' : S.Party)
    (c : VoucherChain S) :
    (s.setChain client vendor c).chain client' vendor' =
      if (client', vendor') = (client, vendor) then c else s.chain client' vendor' := by
  unfold chain setChain
  rw [Table.get?_put]
  split <;> rfl

end VoucherStore
end VoucherGateway
