import VoucherGateway.Proofs.Ledger.Preservation

/-!
# Books — where charged cost goes

What a client was charged is either unmarked still or covered by vouchers that are handed over.  An entry that
charges adds to the first, an entry that completes a spend moves the atoms of a voucher from the first to the
second, and no other entry touches either (`Sound.books_post`).
-/

namespace VoucherGateway

variable {S : Scheme}

/-- The cost of a query, nothing as long as it has none. -/
def Query.cost (q : Query S) : Nat := (q.actual.getD 0).toNat

/-- What a query contributes to the charges of a client. -/
def Query.chargedFor (client : S.Party) (q : Query S) : Nat :=
  if q.client = client ∧ q.charged = true then q.cost else 0

/-- What an entry charges a client. -/
def Entry.charges (client : S.Party) : Entry S → Nat
  | .charged q cost => if client = q.client then cost.toNat else 0
  | _ => 0

namespace Ledger

variable {L : Ledger S} {e : Entry S} {c : S.Party}

/-- The unmarked cost of a client, and the atoms of all vouchers handed over. -/
def books (L : Ledger S) (client : S.Party) : Nat :=
  (L.unmarkedOf client).toNat + ((L.handed client).map (·.atoms.toNat)).sum

theorem Sound.books_post (h : L.Sound) (ha : L.Allows e) : (L.post e).books c = L.books c + e.charges c := by
  unfold Ledger.books
  rw [h.handed_post ha, unmarkedOf_post]
  cases e with
  | completed client p =>
    dsimp only [Entry.charges]
    split
    · next he =>
      subst he
      have hcov := h.covered c p ha.1
      have hle := UInt64.le_iff_toNat_le.1 hcov
      rw [Atoms.toNat_sub_of_le hcov]
      simp only [List.map_append, List.sum_append, List.map_cons, List.map_nil, List.sum_cons, List.sum_nil]
      omega
    · rfl
  | charged q cost =>
    dsimp only [Entry.charges]
    split
    · next he =>
      rw [he, Atoms.toNat_add_of_fits ha.2.2.2.2.2]
      omega
    · rfl
  | _ => rfl

theorem Sound.chargedFor_onRow (h : L.Sound) (ha : L.Allows e) {x : Query S} (hx : x ∈ L.queries.rows)
    (hne : ∀ q cost, e ≠ .charged q cost) : (e.onRow x).chargedFor c = x.chargedFor c := by
  have ht := turns_onRow h.numbered ha hx
  generalize e.onRow x = y at ht ⊢
  cases ht with
  | charged cost => exact absurd rfl (hne x cost)
  | priced cost =>
    -- what has no cost yet is not charged
    have hch : x.charged = false := by
      by_contra hch
      have hsome := (h.rows x hx).charged_priced (by simpa using hch)
      rw [ha.2.2] at hsome
      cases hsome
    simp [Query.chargedFor, hch]
  | _ => rfl

/-- What an entry does to a sum over the queries on record, if it leaves what counts of them as it is: the sum grows
by the queries that the entry adds. -/
theorem sum_rows_post {w : Query S → Nat} (hkeep : ∀ x, e.keeps x = true)
    (hsame : ∀ x ∈ L.queries.rows, w (e.onRow x) = w x) :
    ((L.post e).queries.rows.map w).sum = (L.queries.rows.map w).sum + (e.fresh.map w).sum := by
  have hall : L.queries.rows.filter (fun x => e.keeps x) = L.queries.rows :=
    List.filter_eq_self.2 fun x _ => hkeep x
  have hrows : (L.queries.rows.map fun x => e.onRow x).map w = L.queries.rows.map w := by
    rw [List.map_map]
    exact List.map_congr_left hsame
  rw [rows_post, hall, List.map_append, List.sum_append, hrows]

/-- As long as nothing is forgotten, the charges of the queries on record grow by what is charged. -/
theorem Sound.charged_post (h : L.Sound) (ha : L.Allows e) (hkeep : ∀ x, e.keeps x = true) :
    ((L.post e).queries.rows.map (Query.chargedFor c)).sum =
      (L.queries.rows.map (Query.chargedFor c)).sum + e.charges c := by
  by_cases hcharge : ∃ q cost, e = .charged q cost
  · obtain ⟨q, cost, rfl⟩ := hcharge
    obtain ⟨hq, -, -, hch, hact, -⟩ := ha
    have hsum := sum_map_update h.numbered.nodup hq (fun x => { x with charged := true }) (Query.chargedFor c)
    have hbefore : q.chargedFor c = 0 := by simp [Query.chargedFor, hch]
    have hafter : Query.chargedFor c { q with charged := true } = Entry.charges c (.charged q cost) := by
      simp [Query.chargedFor, Query.cost, Entry.charges, hact, eq_comm]
    rw [hbefore, hafter] at hsum
    exact hsum
  · rw [sum_rows_post hkeep fun x hx => h.chargedFor_onRow ha hx fun q cost he => hcharge ⟨q, cost, he⟩]
    congr 1
    cases e with
    | charged q cost => exact absurd ⟨q, cost, rfl⟩ hcharge
    | reserved q => simp [Entry.fresh, Query.chargedFor, Entry.charges, ha.2.2.2.2.1]
    | _ => rfl

/-- As long as nothing is forgotten, charges and books grow alike. -/
theorem Trail.charged {allowed : Entry S → Prop} {M : Ledger S} (ht : Trail allowed L M) (hL : L.Sound)
    (hkeep : ∀ e x, allowed e → e.keeps x = true) (c : S.Party) :
    (M.queries.rows.map (Query.chargedFor c)).sum + L.books c =
      (L.queries.rows.map (Query.chargedFor c)).sum + M.books c := by
  induction ht with
  | refl => rfl
  | tail hpath hstep ih =>
    rcases hstep with ⟨e, he, ha, rfl⟩
    have hM := hL.trail hpath
    rw [hM.charged_post ha fun x => hkeep e x he, hM.books_post ha]
    omega

/-- What charges nothing leaves the books alone. -/
theorem Trail.books_eq {allowed : Entry S → Prop} {M : Ledger S} (ht : Trail allowed L M) (hL : L.Sound)
    (hnone : ∀ e, allowed e → e.charges c = 0) : M.books c = L.books c := by
  induction ht with
  | refl => rfl
  | tail hpath hstep ih =>
    rcases hstep with ⟨e, he, ha, rfl⟩
    rw [(hL.trail hpath).books_post ha, hnone e he, ih]
    rfl

end Ledger
end VoucherGateway
