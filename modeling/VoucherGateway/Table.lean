/-!
# Table — finite maps that remember the order of insertion

A table is a list of keyed rows.  `put` replaces the row of a known key where it stands and appends a
new one, so that listing a table never depends on anything but the history of its updates.
-/

namespace VoucherGateway

/-- Rows under keys, oldest key first. -/
structure Table (κ ν : Type) where
  rows : List (κ × ν) := []

namespace Table

variable {κ ν : Type} [DecidableEq κ]

/-- No rows. -/
def empty : Table κ ν := ⟨[]⟩

/-- The row of a key. -/
def get? (t : Table κ ν) (k : κ) : Option ν := (t.rows.find? (·.1 = k)).map (·.2)

/-- Replaces the first row of a key in a list, or appends one. -/
def putRow (k : κ) (v : ν) : List (κ × ν) → List (κ × ν)
  | [] => [(k, v)]
  | r :: rs => if r.1 = k then (k, v) :: rs else r :: putRow k v rs

/-- Writes the row of a key. -/
def put (t : Table κ ν) (k : κ) (v : ν) : Table κ ν := ⟨putRow k v t.rows⟩

/-- Removes a key. -/
def erase (t : Table κ ν) (k : κ) : Table κ ν := ⟨t.rows.filter (·.1 ≠ k)⟩

/-- Changes the row of a key, if there is one. -/
def modify (t : Table κ ν) (k : κ) (f : ν → ν) : Table κ ν :=
  match t.get? k with
  | some v => t.put k (f v)
  | none => t

/-- Keeps the rows that pass a test. -/
def keep (t : Table κ ν) (p : κ → ν → Bool) : Table κ ν := ⟨t.rows.filter fun r => p r.1 r.2⟩

/-- Whether a key has a row. -/
def has (t : Table κ ν) (k : κ) : Bool := (t.get? k).isSome

/-- Number of rows. -/
def size (t : Table κ ν) : Nat := t.rows.length

/-! ## Reading after writing -/

@[simp] theorem get?_empty (k : κ) : (empty : Table κ ν).get? k = none := rfl

theorem find?_putRow (k k' : κ) (v : ν) (rs : List (κ × ν)) :
    ((putRow k v rs).find? (·.1 = k')).map (·.2) =
      if k' = k then some v else (rs.find? (·.1 = k')).map (·.2) := by
  induction rs with
  | nil => by_cases h : k = k' <;> simp [putRow, h, eq_comm]
  | cons r rs ih =>
    by_cases hr : r.1 = k
    · by_cases h : k' = k
      · subst h; simp [putRow, hr]
      · have h1 : ¬ k = k' := fun e => h e.symm
        have h2 : ¬ r.1 = k' := fun e => h (e.symm.trans hr)
        simp [putRow, hr, h, h1, List.find?]
    · by_cases h : k' = k
      · subst h
        simp only [putRow, hr, if_false, if_true, List.find?] at ih ⊢
        simpa [hr] using ih
      · simp only [putRow, hr, if_false, h, List.find?] at ih ⊢
        by_cases h' : r.1 = k' <;> simp_all

theorem get?_put (t : Table κ ν) (k k' : κ) (v : ν) :
    (t.put k v).get? k' = if k' = k then some v else t.get? k' :=
  find?_putRow k k' v t.rows

@[simp] theorem get?_put_self (t : Table κ ν) (k : κ) (v : ν) : (t.put k v).get? k = some v := by
  simp [get?_put]

theorem get?_put_ne (t : Table κ ν) {k k' : κ} (v : ν) (h : k' ≠ k) :
    (t.put k v).get? k' = t.get? k' := by
  simp [get?_put, h]

theorem get?_erase (t : Table κ ν) (k k' : κ) :
    (t.erase k).get? k' = if k' = k then none else t.get? k' := by
  unfold get? erase
  induction t.rows with
  | nil => simp
  | cons r rs ih =>
    by_cases hr : r.1 = k
    · by_cases h : k' = k
      · subst h; simp_all [List.filter]
      · have h2 : ¬ r.1 = k' := fun e => h (e.symm.trans hr)
        simp_all [List.filter, List.find?]
    · by_cases h : k' = k
      · subst h; simp_all [List.filter]
      · by_cases h' : r.1 = k' <;> simp_all [List.filter, List.find?]

@[simp] theorem get?_erase_self (t : Table κ ν) (k : κ) : (t.erase k).get? k = none := by
  simp [get?_erase]

theorem get?_modify (t : Table κ ν) (k k' : κ) (f : ν → ν) :
    (t.modify k f).get? k' = if k' = k then (t.get? k).map f else t.get? k' := by
  unfold modify
  cases h : t.get? k with
  | none => by_cases e : k' = k <;> simp [e, h]
  | some v => by_cases e : k' = k <;> simp [e, get?_put]

end Table
end VoucherGateway
