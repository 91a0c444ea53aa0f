import VoucherGateway.Proofs.Clients.Renaming

/-!
# Matching — ledgers that hold the same of some clients

What a ledger holds of one client is the client's *account*: a folio of its own, and its rows in the tables
of sessions and queries, which all clients share.  Two ledgers match on some clients if these have the same
accounts in both, under a renaming, and if their rows stand in the same order.
-/

namespace VoucherGateway

variable {S : Scheme} {ρ : Renaming}

/-- What is kept under the name of one client. -/
@[ext] structure Folio (S : Scheme) where
  /-- The vouchers for each vendor and the marks of the spent ones. -/
  chain : S.Party → VoucherChain S
  unmarked : Atoms
  locked : Atoms
  pending : Option (PendingSpend S)
  settlement : ClientSettlement S
  halted : Option String

/-- Everything kept of one client. -/
@[ext] structure Account (S : Scheme) extends Folio S where
  sessions : List (Session S)
  queries : List (Query S)

/-- A folio under other numbers. -/
def Folio.rename (ρ : Renaming) (f : Folio S) : Folio S := { f with pending := f.pending.map (·.rename ρ) }

/-- An account under other numbers. -/
def Account.rename (ρ : Renaming) (a : Account S) : Account S where
  toFolio := a.toFolio.rename ρ
  sessions := a.sessions.map (·.rename ρ)
  queries := a.queries.map (·.rename ρ)

@[simp] theorem Folio.rename_refl (f : Folio S) : f.rename .refl = f := by
  obtain ⟨chain, unmarked, locked, pending, settlement, halted⟩ := f
  cases pending <;> simp [rename]

@[simp] theorem Account.rename_refl (a : Account S) : a.rename .refl = a := by
  simp [rename]

namespace Ledger

/-- What is kept under the name of a client. -/
def folio (L : Ledger S) (client : S.Party) : Folio S where
  chain vendor := (L.chains.get? (client, vendor)).getD {}
  unmarked := L.unmarkedOf client
  locked := L.lockedOf client
  pending := L.pending client
  settlement := L.settlement.of client
  halted := L.halted.get? client

/-- Everything kept of a client. -/
def account (L : Ledger S) (client : S.Party) : Account S where
  toFolio := L.folio client
  sessions := L.sessions.rows.filter fun s => s.client = client
  queries := L.queries.rows.filter fun q => q.client = client

/-- The second ledger holds of some clients what the first one holds, under other numbers. -/
structure Matches (watched : S.Party → Bool) (ρ : Renaming) (L L' : Ledger S) : Prop where
  folio : ∀ c, watched c = true → L'.folio c = (L.folio c).rename ρ
  queries : L'.queries.rows.filter (fun q => watched q.client) =
    (L.queries.rows.filter fun q => watched q.client).map (·.rename ρ)
  sessions : L'.sessions.rows.filter (fun s => watched s.client) =
    (L.sessions.rows.filter fun s => watched s.client).map (·.rename ρ)

namespace Matches

variable {watched : S.Party → Bool} {K L L' : Ledger S}

theorem refl (watched : S.Party → Bool) (L : Ledger S) : L.Matches watched .refl L where
  folio _ _ := by simp
  queries := by simp
  sessions := by simp

/-- Fewer clients match as well. -/
theorem mono (h : L.Matches watched ρ L') (watched' : S.Party → Bool)
    (himp : ∀ c, watched' c = true → watched c = true) :
    L.Matches watched' ρ L' := by
  have narrow : ∀ c, (watched' c && watched c) = watched' c := fun c => by
    cases hc : watched' c with
    | true => simp [himp c hc]
    | false => rfl
  refine ⟨fun c hc => h.folio c (himp c hc), ?_, ?_⟩
  · have hrows := congrArg (List.filter fun q => watched' q.client) h.queries
    simpa only [List.filter_filter, List.filter_map, Function.comp_def, Query.rename, narrow] using hrows
  · have hrows := congrArg (List.filter fun s => watched' s.client) h.sessions
    simpa only [List.filter_filter, List.filter_map, Function.comp_def, Session.rename, narrow] using hrows

/-- The first ledger may change as long as it holds the same of the clients. -/
theorem of_left (hleft : L.Matches watched .refl K) (h : L.Matches watched ρ L') : K.Matches watched ρ L' where
  folio c hc := by
    rw [h.folio c hc, hleft.folio c hc, Folio.rename_refl]
  queries := by
    rw [h.queries, hleft.queries]
    simp
  sessions := by
    rw [h.sessions, hleft.sessions]
    simp

/-- A client that matches has the same account. -/
theorem account (h : L.Matches watched ρ L') {c : S.Party} (hc : watched c = true) :
    L'.account c = (L.account c).rename ρ := by
  have honly := h.mono (fun d => decide (d = c)) (by simp [hc])
  unfold Ledger.account Account.rename
  rw [h.folio c hc, honly.queries, honly.sessions]

end Matches
end Ledger
end VoucherGateway
