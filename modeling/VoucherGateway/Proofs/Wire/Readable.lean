import VoucherGateway.Proofs.Wire.RoundTrip

/-!
# Readable values — what can be read fits what can be written

A reader takes more forms than a writer uses, so a value that was read need not be one that was written.  But
lengths come in at most four bytes, and so no string of bytes that is read is longer than a writer can announce.

Main statements: `Readable.short` and `Readable.of_mem_fields?`.
-/

namespace VoucherGateway

namespace Bytes

theorem ofLittleEndian_lt (bytes : Bytes) : ofLittleEndian bytes < capacity bytes.length := by
  induction bytes with
  | nil => exact Nat.one_pos
  | cons b rest ih =>
    have hb : b.toNat < 256 := b.toNat_lt
    simp only [ofLittleEndian, List.length_cons, capacity]
    omega

theorem ofBigEndian_lt (bytes : Bytes) : ofBigEndian bytes < capacity bytes.length := by
  have h := ofLittleEndian_lt bytes.reverse
  rwa [List.length_reverse] at h

end Bytes

namespace MessagePack

variable {α β : Type}

/-! ## Steps of the reader -/

theorem takeBytes_length {n : Nat} {input bytes rest : Bytes} (h : takeBytes n input = some (bytes, rest)) :
    bytes.length = n := by
  unfold takeBytes at h
  split at h
  · cases h
  · next hn =>
    simp only [List.splitAt_eq, Option.some.injEq, Prod.mk.injEq] at h
    rw [← h.1, List.length_take]
    omega

theorem takeNat_lt {width n : Nat} {input rest : Bytes} (h : takeNat width input = some (n, rest)) :
    n < Bytes.capacity width := by
  obtain ⟨⟨bytes, rest'⟩, htake, hread⟩ := Option.map_eq_some_iff.1 h
  cases hread
  rw [← takeBytes_length htake]
  exact Bytes.ofBigEndian_lt bytes

/-- Lengths come in at most four bytes. -/
theorem capacity_le {k : Nat} (h : k ≤ 2) : Bytes.capacity (1 <<< k) ≤ 2 ^ 32 := by
  match k, h with
  | 0, _ | 1, _ | 2, _ => decide

/-- A head announces no more than fits in four bytes, and no container is a scalar. -/
def Head.Fits : Head → Prop
  | .items count | .pairs count => count < 2 ^ 32
  | .scalar (.binary bytes) => bytes.length < 2 ^ 32
  | .scalar (.array _) | .scalar (.map _) => False
  | .scalar _ => True

/-- The head that is read, if one is. -/
def Fitting (read : Option (Head × Bytes)) : Prop := ∀ head rest, read = some (head, rest) → head.Fits

section Heads

variable {input rest : Bytes} {width : Nat}

theorem fitting_none : Fitting none := fun _ _ h => nomatch h

theorem fitting_some {head : Head} (h : head.Fits) : Fitting (some (head, rest)) := by
  rintro _ _ ⟨⟩
  exact h

theorem fitting_ite {p : Prop} [Decidable p] {a b : Option (Head × Bytes)} (ha : p → Fitting a)
    (hb : ¬ p → Fitting b) : Fitting (if p then a else b) := by
  split
  · next hp => exact ha hp
  · next hp => exact hb hp

theorem fitting_takeScalar {make : Bytes → Value} {n : Nat}
    (h : ∀ bytes : Bytes, bytes.length = n → (Head.scalar (make bytes)).Fits) :
    Fitting (takeScalar make n input) := by
  intro head rest hread
  obtain ⟨⟨bytes, rest⟩, htake, ⟨⟩⟩ := Option.map_eq_some_iff.1 hread
  exact h bytes (takeBytes_length htake)

theorem fitting_takeCounted {make : Bytes → Value} {extra : Nat}
    (h : ∀ bytes : Bytes, bytes.length < Bytes.capacity width + extra → (Head.scalar (make bytes)).Fits) :
    Fitting (takeCounted make width extra input) := by
  intro head rest hread
  obtain ⟨⟨n, after⟩, htake, hrest⟩ := Option.bind_eq_some_iff.1 hread
  have hn : n < Bytes.capacity width := takeNat_lt htake
  exact fitting_takeScalar (fun bytes hbytes => h bytes (by omega)) head rest hrest

theorem fitting_takeNat (make : Nat → Head) (h : ∀ n, n < Bytes.capacity width → (make n).Fits) :
    Fitting ((takeNat width input).map fun r => (make r.1, r.2)) := by
  intro head rest hread
  obtain ⟨⟨n, rest⟩, htake, ⟨⟩⟩ := Option.map_eq_some_iff.1 hread
  exact h n (takeNat_lt htake)

theorem fitting_takeInt : Fitting ((takeInt width input).map fun r => (.scalar (.signed r.1), r.2)) := by
  intro head rest hread
  obtain ⟨_, -, ⟨⟩⟩ := Option.map_eq_some_iff.1 hread
  trivial

theorem fitting_readHead : Fitting (readHead input) := by
  cases input with
  | nil => exact fitting_none
  | cons first rest =>
    have hfirst : first.toNat < 256 := first.toNat_lt
    unfold readHead
    -- the short forms
    refine fitting_ite (fun _ => fitting_some trivial) fun _ => ?_
    refine fitting_ite (fun _ => fitting_some ?_) fun _ => ?_
    · show first.toNat - 0x80 < 2 ^ 32
      omega
    refine fitting_ite (fun _ => fitting_some ?_) fun _ => ?_
    · show first.toNat - 0x90 < 2 ^ 32
      omega
    refine fitting_ite (fun _ => fitting_takeScalar fun _ _ => trivial) fun _ => ?_
    -- the values that are all in the first byte
    refine fitting_ite (fun _ => fitting_some trivial) fun _ => ?_
    refine fitting_ite (fun _ => fitting_none) fun _ => ?_
    refine fitting_ite (fun _ => fitting_some trivial) fun _ => ?_
    refine fitting_ite (fun _ => fitting_some trivial) fun _ => ?_
    -- binary data, extensions, floating-point numbers and numbers
    refine fitting_ite (fun _ => fitting_takeCounted fun bytes hbytes => ?_) fun _ => ?_
    · have hwidth : Bytes.capacity (1 <<< (first.toNat - 0xC4)) ≤ 2 ^ 32 := capacity_le (by omega)
      rw [Nat.add_zero] at hbytes
      exact Nat.lt_of_lt_of_le hbytes hwidth
    refine fitting_ite (fun _ => fitting_takeCounted fun _ _ => trivial) fun _ => ?_
    refine fitting_ite (fun _ => fitting_takeScalar fun _ _ => trivial) fun _ => ?_
    refine fitting_ite (fun _ => fitting_takeNat .number fun _ _ => trivial) fun _ => ?_
    refine fitting_ite (fun _ => fitting_takeInt) fun _ => ?_
    refine fitting_ite (fun _ => fitting_takeScalar fun _ _ => trivial) fun _ => ?_
    -- texts, arrays, maps and negative numbers
    refine fitting_ite (fun _ => fitting_takeCounted fun _ _ => trivial) fun _ => ?_
    refine fitting_ite (fun _ => fitting_takeNat .items fun n hn => ?_) fun _ => ?_
    · have hwidth : Bytes.capacity (1 <<< (first.toNat - 0xDB)) ≤ 2 ^ 32 := capacity_le (by omega)
      exact Nat.lt_of_lt_of_le hn hwidth
    refine fitting_ite (fun _ => fitting_takeNat .pairs fun n hn => ?_) fun _ => fitting_some trivial
    · have hwidth : Bytes.capacity (1 <<< (first.toNat - 0xDD)) ≤ 2 ^ 32 := capacity_le (by omega)
      exact Nat.lt_of_lt_of_le hn hwidth

end Heads

/-- What is read in a row are as many things as were asked for, and each was read. -/
theorem readMany_read {read : Bytes → Option (α × Bytes)} {n : Nat} {input rest : Bytes} {as : List α}
    (h : readMany read n input = some (as, rest)) :
    as.length = n ∧ ∀ a ∈ as, ∃ input' rest', read input' = some (a, rest') := by
  induction n generalizing input as with
  | zero =>
    cases h
    exact ⟨rfl, fun a ha => nomatch ha⟩
  | succ n ih =>
    simp only [readMany] at h
    split at h
    · cases h
    · next a after hfirst =>
      split at h
      · cases h
      · next as' rest' hrest =>
        cases h
        obtain ⟨hlength, hread⟩ := ih hrest
        refine ⟨congrArg (· + 1) hlength, fun b hb => ?_⟩
        obtain rfl | hb := List.mem_cons.1 hb
        · exact ⟨input, after, hfirst⟩
        · exact hread b hb

theorem readPair_read {read : Bytes → Option (α × Bytes)} {input rest : Bytes} {pair : α × α}
    (h : readPair read input = some (pair, rest)) :
    (∃ input' rest', read input' = some (pair.1, rest')) ∧ ∃ input' rest', read input' = some (pair.2, rest') := by
  unfold readPair at h
  split at h
  · cases h
  · next hfirst =>
    split at h
    · cases h
    · next hsecond =>
      cases h
      exact ⟨⟨_, _, hfirst⟩, ⟨_, _, hsecond⟩⟩

/-! ## Readable values -/

/-- A value that can be read from some bytes. -/
def Readable (v : Value) : Prop := ∃ depth input rest, read depth input = some (v, rest)

theorem Reads.readable {bytes : Bytes} {v : Value} {depth : Nat} (h : Reads (read depth) bytes v) : Readable v :=
  ⟨depth, bytes ++ [], [], h []⟩

theorem readable_byte (b : UInt8) : Readable (.unsigned b.toNat) := by
  have hb : b.toNat < 2 ^ 64 := Nat.lt_trans b.toNat_lt (by decide)
  exact (reads_number hb 0).readable

/-- What a value consists of fits, and was read itself. -/
inductive Readable.Parts : Value → Prop
  | scalar {v : Value} (hfits : (Head.scalar v).Fits) : Parts v
  | array {items : List Value} (hshort : items.length < 2 ^ 32) (hitems : ∀ item ∈ items, Readable item) :
      Parts (.array items)
  | map {pairs : List (Value × Value)} (hpairs : ∀ pair ∈ pairs, Readable pair.1 ∧ Readable pair.2) :
      Parts (.map pairs)

theorem Readable.parts {v : Value} (h : Readable v) : Parts v := by
  obtain ⟨depth, input, rest, hread⟩ := h
  cases depth with
  | zero =>
    simp only [read] at hread
    split at hread
    · cases hread
    · next hhead =>
      cases hread
      exact .scalar (fitting_readHead _ _ hhead)
    · cases hread
  | succ depth =>
    simp only [read] at hread
    split at hread
    · cases hread
    · next hhead =>
      cases hread
      exact .scalar (fitting_readHead _ _ hhead)
    · next hhead =>
      obtain ⟨⟨items, _⟩, hmany, ⟨⟩⟩ := Option.map_eq_some_iff.1 hread
      obtain ⟨rfl, hitems⟩ := readMany_read hmany
      exact .array (fitting_readHead _ _ hhead) fun item hitem => ⟨depth, hitems item hitem⟩
    · next hhead =>
      obtain ⟨⟨pairs, _⟩, hmany, ⟨⟩⟩ := Option.map_eq_some_iff.1 hread
      obtain ⟨rfl, hpairs⟩ := readMany_read hmany
      refine .map fun pair hpair => ?_
      obtain ⟨_, _, hread⟩ := hpairs pair hpair
      obtain ⟨hfirst, hsecond⟩ := readPair_read hread
      exact ⟨⟨depth, hfirst⟩, ⟨depth, hsecond⟩⟩

/-! ## Fields -/

theorem length_of_mapM {f : α → Option β} {as : List α} {bs : List β} (h : as.mapM f = some bs) :
    bs.length = as.length := by
  induction as generalizing bs with
  | nil =>
    cases h
    rfl
  | cons a as ih =>
    simp only [List.mapM_cons, Option.bind_eq_bind, Option.bind_eq_some_iff] at h
    obtain ⟨b, -, bs, hbs, ⟨⟩⟩ := h
    simp only [List.length_cons, ih hbs]

theorem exists_of_mem_mapM {f : α → Option β} {as : List α} {bs : List β} (h : as.mapM f = some bs) {b : β}
    (hb : b ∈ bs) : ∃ a ∈ as, f a = some b := by
  induction as generalizing bs with
  | nil =>
    cases h
    cases hb
  | cons a as ih =>
    simp only [List.mapM_cons, Option.bind_eq_bind, Option.bind_eq_some_iff] at h
    obtain ⟨c, hc, cs, hcs, ⟨⟩⟩ := h
    obtain rfl | hb := List.mem_cons.1 hb
    · exact ⟨a, List.mem_cons_self, hc⟩
    · obtain ⟨a', ha', hab⟩ := ih hcs hb
      exact ⟨a', List.mem_cons_of_mem a ha', hab⟩

/-- A string of bytes that is read can be written. -/
theorem Readable.short {v : Value} (h : Readable v) {bytes : Bytes} (hbytes : v.bytes? = some bytes) :
    bytes.length < 2 ^ 32 := by
  cases h.parts with
  | array hshort _ =>
    rw [length_of_mapM hbytes]
    exact hshort
  | map _ => cases hbytes
  | scalar hfits =>
    cases v with
    | binary _ =>
      cases hbytes
      exact hfits
    | array _ => cases hfits
    | _ => cases hbytes

theorem Readable.of_mem_sequence? {v : Value} (h : Readable v) {n : Nat} {items : List Value}
    (hitems : v.sequence? n = some items) : ∀ item ∈ items, Readable item := by
  unfold Value.sequence? at hitems
  split at hitems
  · split at hitems
    · cases hitems
      cases h.parts with
      | array _ hread => exact hread
      | scalar hfits => cases hfits
    · cases hitems
  · split at hitems
    · cases hitems
      intro item hitem
      obtain ⟨b, -, rfl⟩ := List.mem_map.1 hitem
      exact readable_byte b
    · cases hitems
  · cases hitems

/-- Ordered fields are among the values of the pairs. -/
theorem Value.mem_orderFields {names : List String} {pairs : List (Value × Value)} {fields : List Value}
    (h : orderFields names pairs = some fields) : ∀ field ∈ fields, ∃ pair ∈ pairs, pair.2 = field := by
  intro field hfield
  obtain ⟨keyed, hkeyed, hordered⟩ := Option.bind_eq_some_iff.1 h
  obtain ⟨i, -, hi⟩ := exists_of_mem_mapM hordered hfield
  split at hi
  · next entry hentry =>
    cases hi
    have hmem : entry ∈ keyed := (List.mem_filter.1 (hentry ▸ List.mem_singleton_self entry)).1
    obtain ⟨pair, hpair, hkey⟩ := exists_of_mem_mapM hkeyed hmem
    obtain ⟨_, -, rfl⟩ := Option.map_eq_some_iff.1 hkey
    exact ⟨pair, hpair, rfl⟩
  · cases hi

/-- The fields of a record that is read are themselves read. -/
theorem Readable.of_mem_fields? {v : Value} (h : Readable v) {names : List String} {fields : List Value}
    (hfields : v.fields? names = some fields) : ∀ field ∈ fields, Readable field := by
  unfold Value.fields? at hfields
  split at hfields
  · intro field hfield
    obtain ⟨pair, hpair, rfl⟩ := Value.mem_orderFields hfields field hfield
    cases h.parts with
    | map hpairs => exact (hpairs pair hpair).2
    | scalar hfits => cases hfits
  · exact h.of_mem_sequence? hfields

end MessagePack
end VoucherGateway
