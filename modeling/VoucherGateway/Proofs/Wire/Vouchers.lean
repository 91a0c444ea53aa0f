import VoucherGateway.Proofs.Wire.Readable
import VoucherGateway.Proofs.Wire.Spelling
import VoucherGateway.Voucher.Wire

/-!
# Vouchers on the wire — a voucher arrives as it was sent

A voucher whose signature a writer can announce is read back as itself, whatever follows its bytes and however its
digits are spelled.  The reader takes forms that are never written, but a voucher that it hands out is always one
that can be written, and so passing a text through reader and writer once is as good as doing it again.

Main statement: `wire_round_trip`.
-/

namespace VoucherGateway
namespace SignedVoucher

open MessagePack (Reads Readable Value encodeArrayHeader encodeBytes encodeNat reads_array reads_encodeBytes
  reads_number)

variable {v : SignedVoucher}

/-! ## From the sender to the receiver -/

/-- A string of bytes as it is written, and as it is read. -/
def bytesField (bytes : Bytes) : Bytes × Value :=
  (encodeBytes bytes, .array (bytes.map fun b => .unsigned b.toNat))

/-- A word as it is written, and as it is read. -/
def wordField (n : UInt64) : Bytes × Value := (encodeNat n.toNat, .unsigned n.toNat)

/-- The fields of a voucher. -/
def fields (v : SignedVoucher) : List (Bytes × Value) :=
  [bytesField v.client.bytes, bytesField v.vendor.bytes, wordField v.nonce, wordField v.atoms,
    bytesField v.signature]

theorem encode_eq (v : SignedVoucher) :
    encode v = encodeArrayHeader (fields v).length ++ (fields v).flatMap Prod.fst := by
  simp [encode, fields, fieldNames, bytesField, wordField]

theorem reads_bytesField {bytes : Bytes} (h : bytes.length < 2 ^ 32) (depth : Nat) :
    Reads (MessagePack.read (depth + 1)) (bytesField bytes).1 (bytesField bytes).2 :=
  reads_encodeBytes h depth

theorem reads_wordField (n : UInt64) (depth : Nat) :
    Reads (MessagePack.read depth) (wordField n).1 (wordField n).2 :=
  reads_number n.toNat_lt depth

theorem reads_fields (h : v.signature.length < 2 ^ 32) (depth : Nat) :
    ∀ field ∈ fields v, Reads (MessagePack.read (depth + 1)) field.1 field.2 := by
  have hname : ∀ id : Identifier, id.bytes.length < 2 ^ 32 := fun id => by
    rw [id.length_eq]
    decide
  intro field hfield
  simp only [fields, List.mem_cons, List.not_mem_nil, or_false] at hfield
  obtain rfl | rfl | rfl | rfl | rfl := hfield
  · exact reads_bytesField (hname v.client) depth
  · exact reads_bytesField (hname v.vendor) depth
  · exact reads_wordField v.nonce (depth + 1)
  · exact reads_wordField v.atoms (depth + 1)
  · exact reads_bytesField h depth

theorem reads_encode (h : v.signature.length < 2 ^ 32) (depth : Nat) :
    Reads (MessagePack.read (depth + 2)) (encode v) (.array ((fields v).map Prod.snd)) := by
  rw [encode_eq]
  exact reads_array (by decide : 5 < 2 ^ 32) (reads_fields h depth)

theorem ofBytes?_bytesField (id : Identifier) :
    ((bytesField id.bytes).2.bytesOfLength? 32).bind Identifier.ofBytes? = some id := by
  have hbytes := Value.bytesOfLength?_array id.bytes
  rw [id.length_eq] at hbytes
  rw [bytesField, hbytes, Option.bind_some, Identifier.ofBytes?_bytes]

theorem bytes?_bytesField (bytes : Bytes) : (bytesField bytes).2.bytes? = some bytes := Value.bytes?_array bytes

theorem word?_wordField (n : UInt64) : (wordField n).2.word? = some n := Value.word?_unsigned n

theorem ofFields?_fields (v : SignedVoucher) : ofFields? ((fields v).map Prod.snd) = some v := by
  simp [fields, ofFields?, ofBytes?_bytesField, word?_wordField, bytes?_bytesField]

/-- A voucher in front of whatever follows is read as itself. -/
theorem decode?_encode (h : v.signature.length < 2 ^ 32) (rest : Bytes) : decode? (encode v ++ rest) = some v := by
  have hread := reads_encode h 1021 rest
  have hdecode : MessagePack.decode (encode v ++ rest) = some (.array ((fields v).map Prod.snd)) := by
    unfold MessagePack.decode MessagePack.maxDepth
    rw [hread]
    rfl
  have hfields : Value.fields? fieldNames (.array ((fields v).map Prod.snd)) = some ((fields v).map Prod.snd) :=
    rfl
  rw [decode?, hdecode, Option.bind_some, hfields, Option.bind_some, ofFields?_fields]

theorem ofHex_of_spells (h : v.signature.length < 2 ^ 32) {text : String} (htext : Hex.Spells text (encode v)) :
    ofHex text = .ok v := by
  have hdecode : decode? (encode v) = some v := by simpa using decode?_encode h []
  simp only [ofHex, htext.decode_trim, hdecode]

theorem ofHex_toHex (h : v.signature.length < 2 ^ 32) : ofHex (toHex v) = .ok v :=
  ofHex_of_spells h (Hex.spells_encode (encode v))

/-! ## From the receiver back to the sender -/

/-- A voucher that is read can be written. -/
theorem short_of_decode? {bytes : Bytes} (h : decode? bytes = some v) : v.signature.length < 2 ^ 32 := by
  obtain ⟨values, hvalues, hvoucher⟩ := Option.bind_eq_some_iff.1 h
  obtain ⟨_, hvalue, hfields⟩ := Option.bind_eq_some_iff.1 hvalues
  obtain ⟨⟨value, rest⟩, hread, rfl⟩ := Option.map_eq_some_iff.1 hvalue
  have hreadable : Readable value := ⟨_, bytes, rest, hread⟩
  unfold ofFields? at hvoucher
  split at hvoucher
  · next client vendor nonce atoms signature =>
    have hsignature : Readable signature := hreadable.of_mem_fields? hfields signature (by simp)
    simp only [Option.bind_eq_bind, Option.bind_eq_some_iff] at hvoucher
    obtain ⟨_, _, _, _, _, _, _, _, _, hbytes, ⟨⟩⟩ := hvoucher
    exact hsignature.short hbytes
  · cases hvoucher

theorem short_of_ofHex {text : String} (h : ofHex text = .ok v) : v.signature.length < 2 ^ 32 := by
  unfold ofHex at h
  split at h
  · cases h
  · split at h
    · next hdecode =>
      cases h
      exact short_of_decode? hdecode
    · cases h

/-! ## The wire -/

/-- A voucher arrives as it was sent. -/
structure Arrives (v : SignedVoucher) : Prop where
  /-- Its bytes are read as the voucher, whatever follows them. -/
  bytes : ∀ rest, decode? (encode v ++ rest) = some v
  /-- Its text is read as the voucher, in either case and with any blanks around it. -/
  text : ∀ text, Hex.Spells text (encode v) → ofHex text = .ok v
  /-- What is received is as authentic as what was sent. -/
  authentic : ∀ text received, Hex.Spells text (encode v) → ofHex text = .ok received →
    received.isAuthentic = v.isAuthentic

/-- Vouchers arrive as they were sent, no two have one text, and a text that is read is settled once it is written
again. -/
theorem wire_round_trip :
    (∀ v : SignedVoucher, v.signature.length < 2 ^ 32 → Arrives v) ∧
    (∀ v w : SignedVoucher, v.signature.length < 2 ^ 32 → w.signature.length < 2 ^ 32 →
      toHex v = toHex w → v = w) ∧
    ∀ text v, ofHex text = .ok v → ofHex (toHex v) = .ok v := by
  refine ⟨fun v hv => ⟨decode?_encode hv, fun _ => ofHex_of_spells hv, ?_⟩, ?_, ?_⟩
  · intro text received hspells hreceived
    rw [ofHex_of_spells hv hspells] at hreceived
    cases hreceived
    rfl
  · intro v w hv hw heq
    have hread := ofHex_toHex hv
    rw [heq, ofHex_toHex hw] at hread
    exact (Except.ok.inj hread).symm
  · exact fun _ _ h => ofHex_toHex (short_of_ofHex h)

/-- Upper-case digits between blanks, a nonce of five bytes and a signature that needs the longer header. -/
theorem wire_round_trip_sample :
    let v : SignedVoucher := ⟨.ofByte 1, .ofByte 0xAB, 0x100000000, 0xFFFF, List.replicate 16 0x80⟩
    let next : SignedVoucher := { v with nonce := 0x100000001 }
    let text := String.ofList ('\t' :: (Hex.digits (encode v)).map Char.toUpper ++ ['\n', ' '])
    v.signature.length < 2 ^ 32 ∧ next.signature.length < 2 ^ 32 ∧ Hex.Spells text (encode v) ∧
      ofHex text = .ok v ∧ ofHex (toHex v) = .ok v ∧ toHex v ≠ toHex next := by
  intro v next text
  have hshort : v.signature.length < 2 ^ 32 := by decide
  have hnext : next.signature.length < 2 ^ 32 := by decide
  have hspells : Hex.Spells text (encode v) :=
    ⟨['\t'], (Hex.digits (encode v)).map Char.toUpper, ['\n', ' '], String.toList_ofList, by simp [Text.isBlank],
      by simp [Text.isBlank], by decide +kernel⟩
  have hread : ofHex text = .ok v := (wire_round_trip.1 v hshort).text text hspells
  refine ⟨hshort, hnext, hspells, hread, wire_round_trip.2.2 text v hread, fun heq => ?_⟩
  have hsame : v = next := wire_round_trip.2.1 v next hshort hnext heq
  exact absurd (congrArg Voucher.nonce hsame) (by decide)

end SignedVoucher
end VoucherGateway
