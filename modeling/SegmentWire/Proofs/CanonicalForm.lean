import SegmentWire.Proofs.Assembly
import SegmentWire.Proofs.Encoding

/-!
# The canonical form of a message

A receiver passes over the reserved byte and the padding of a header, over six bits
of the flags of each record and over its options. The canonical form of a message has
zeros in those places and no padding and no options. It is found without looking at
what the records say, and it says the same as the message. What is encoded is in
canonical form.
-/
namespace SegmentWire

/-- The given number of records, without unknown flag bits and options, and the bytes after them. -/
def canonicalRecords : Nat → Bytes → Bytes
  | count + 1, flags :: length :: high :: low :: rest =>
    let entries := length.toNat * (RecordFlags.ofByte flags).kind.entryLength
    let options := (BigEndian.toU16 [high, low]).toNat
    (flags &&& (RecordFlags.kindMask ||| RecordFlags.acceptedMask)) :: length :: 0 :: 0 ::
      (rest.take entries ++ canonicalRecords count (rest.drop (entries + options)))
  | _, bs => bs

/-- The canonical form of a message to a receiver that holds `cached` segments. -/
def canonicalForm (cached : Nat) (bs : Bytes) : Bytes :=
  let header := Header.ofBytes bs
  0 :: 20 :: ((bs.drop 2).take 18 ++
    canonicalRecords (header.total.toNat - cached) (bs.drop header.length.toNat))

/-! ### Headers -/

/-- The fixed part of a header is written as it was read, apart from the reserved byte and the
length. -/
lemma Header.toBytes_standard_ofBytes {bs : Bytes} (h : 20 ≤ bs.length) :
    (standard (ofBytes bs).total (ofBytes bs).source (ofBytes bs).destination).toBytes =
      0 :: 20 :: (bs.drop 2).take 18 := by
  rw [← fields_ofBytes h, ← List.append_nil (BigEndian.u64 (ofBytes bs).destination.packed)]
  rfl

/-! ### Records -/

namespace RecordFlags

lemma toByte_ofByte (b : UInt8) : (ofByte b).toByte = b &&& (kindMask ||| acceptedMask) := by
  have hbytes : ∀ n < 256, (ofByte (UInt8.ofNat n)).toByte =
      UInt8.ofNat n &&& (kindMask ||| acceptedMask) := by
    decide +kernel
  have h := hbytes b.toNat b.toNat_lt
  rwa [UInt8.ofNat_toNat] at h

end RecordFlags

namespace WireRecord

/-- The record without what its reader passes over. -/
def canonical (w : WireRecord) : WireRecord :=
  ofRecord ⟨w.accepted, w.payload⟩ w.count_le

@[simp] lemma canonical_ofRecord (r : Record) (h : r.payload.count ≤ 255) :
    (ofRecord r h).canonical = ofRecord r h := by
  simp only [canonical, accepted_ofRecord]
  rfl

lemma ofByte_flags_canonical (w : WireRecord) :
    RecordFlags.ofByte w.canonical.flags = RecordFlags.ofByte w.flags := by
  rw [canonical, ofRecord, RecordFlags.ofByte_toByte, w.ofByte_flags]
  rfl

lemma toBytes_canonical (w : WireRecord) :
    w.canonical.toBytes =
      (w.flags &&& (RecordFlags.kindMask ||| RecordFlags.acceptedMask)) ::
        UInt8.ofNat w.payload.count :: 0 :: 0 :: w.payload.toBytes := by
  rw [canonical, toBytes_ofRecord, ← RecordFlags.toByte_ofByte, w.ofByte_flags]
  rfl

end WireRecord

/-- The records of a message are replaced one by one. -/
theorem canonicalRecords_append (ws : List WireRecord) (rest : Bytes) :
    canonicalRecords ws.length (ws.flatMap WireRecord.toBytes ++ rest) =
      (ws.map WireRecord.canonical).flatMap WireRecord.toBytes ++ rest := by
  induction ws with
  | nil => rfl
  | cons w ws ih =>
    obtain ⟨length, high, low, hbytes, hlength, hentries, hoptions⟩ :=
      w.toBytes_append_eq (ws.flatMap WireRecord.toBytes ++ rest)
    have hdrop : (w.payload.toBytes ++ (w.options ++
        (ws.flatMap WireRecord.toBytes ++ rest))).drop
          (w.payload.toBytes.length + w.options.length) =
        ws.flatMap WireRecord.toBytes ++ rest := by
      rw [← List.append_assoc, List.drop_left' List.length_append]
    rw [List.flatMap_cons, List.append_assoc, hbytes, List.length_cons, canonicalRecords]
    simp only [hentries, hoptions]
    rw [List.take_left' rfl, hdrop, ih, List.map_cons, List.flatMap_cons, w.toBytes_canonical,
      hlength]
    simp

/-- The records stand for the same segments. -/
lemma Incoming.denoteAll_canonical (config : Config) (inc : Incoming) (ws : List WireRecord) :
    inc.denoteAll config (ws.map WireRecord.canonical) = inc.denoteAll config ws := by
  induction ws generalizing inc with
  | nil => rfl
  | cons w ws ih =>
    have hpayload : w.canonical.payload = w.payload := rfl
    simp only [List.map_cons, denoteAll, hpayload, w.ofByte_flags_canonical, ih]

/-! ### Messages -/

namespace Layout

variable {config : Config} {cache : List Segment} {bs : Bytes}

lemma canonicalForm_eq (layout : Layout config cache bs) :
    canonicalForm cache.length bs =
      (Header.standard layout.header.total layout.header.source layout.header.destination).toBytes ++
        ((layout.records.map WireRecord.canonical).flatMap WireRecord.toBytes ++
          layout.trailing) := by
  obtain ⟨⟨hsize, -, -⟩, hheader⟩ := Header.parse_eq_ok_iff.mp layout.parse_eq
  have htotal := layout.total_eq
  have hbytes := layout.bytes_eq
  rw [hheader] at htotal hbytes
  have hcount : (Header.ofBytes bs).total.toNat - cache.length = layout.records.length := by omega
  rw [hheader, Header.toBytes_standard_ofBytes hsize, ← canonicalRecords_append, canonicalForm,
    hcount, hbytes]
  rfl

/-- The canonical form is laid out as the message is. -/
def canonical (layout : Layout config cache bs) :
    Layout config cache (canonicalForm cache.length bs) where
  header := .standard layout.header.total layout.header.source layout.header.destination
  records := layout.records.map WireRecord.canonical
  trailing := layout.trailing
  parse_eq := by
    rw [layout.canonicalForm_eq]
    exact Header.parse_toBytes_append _ _
  total_eq := by
    rw [List.length_map]
    exact layout.total_eq
  bytes_eq := by
    rw [layout.canonicalForm_eq]
    exact List.drop_left' (Header.length_toBytes _)
  allowed := layout.allowed

end Layout

/-- The canonical form of a message says what the message says. -/
lemma decode_canonical {config : Config} {cache : List Segment} {bs : Bytes}
    {message : DecodedMessage} (h : decode config bs cache = .ok message) :
    decode config (canonicalForm cache.length bs) cache = .ok message := by
  obtain ⟨layout, inc, hdenote, rfl⟩ := decode_eq_ok_iff.mp h
  have hrecords : (Incoming.ofCache cache).denoteAll config layout.canonical.records = .ok inc :=
    (Incoming.denoteAll_canonical config _ layout.records).trans hdenote
  rw [decode_of_layout layout.canonical, hrecords]
  rfl

/-- What is encoded is in canonical form. -/
lemma canonicalForm_encode {config : Config} {cache segments : List Segment}
    {source destination : IsdAsn} {message : EncodedMessage}
    (h : encode config cache segments source destination = .ok message) :
    canonicalForm cache.length message.bytes = message.bytes := by
  obtain ⟨rs, hcount, hlt, hbytes⟩ := encode_eq_records h
  have hlength : cache.length + rs.length =
      cache.length + (rs.pmap WireRecord.ofRecord hcount).length := by
    rw [List.length_pmap]
  have hcanonical : (rs.pmap WireRecord.ofRecord hcount).map WireRecord.canonical =
      rs.pmap WireRecord.ofRecord hcount := by
    rw [List.map_pmap]
    simp only [WireRecord.canonical_ofRecord]
  have hform := (Layout.standard _ hlength hlt source destination :
    Layout config cache _).canonicalForm_eq
  simp only [Layout.standard, hcanonical, List.append_nil] at hform
  rw [hbytes, hform]
  rfl

/-- Whatever decodes says the same in its canonical form, so that two messages with the same
canonical form say the same. What is encoded is its own canonical form, even if fingerprints
collide. -/
theorem decode_canonicalForm :
    (∀ {config : Config} {cache : List Segment} {bs : Bytes} {message : DecodedMessage},
      decode config bs cache = .ok message →
      decode config (canonicalForm cache.length bs) cache = .ok message) ∧
    (∀ {config : Config} {cache : List Segment} {bs others : Bytes}
        {message message' : DecodedMessage},
      decode config bs cache = .ok message → decode config others cache = .ok message' →
      canonicalForm cache.length bs = canonicalForm cache.length others → message = message') ∧
    ∀ {config : Config} {cache segments : List Segment} {source destination : IsdAsn}
        {message : EncodedMessage},
      encode config cache segments source destination = .ok message →
      canonicalForm cache.length message.bytes = message.bytes := by
  refine ⟨fun h => decode_canonical h, ?_, fun h => canonicalForm_encode h⟩
  intro config cache bs others message message' h h' hsame
  have hform := decode_canonical h
  rw [hsame, decode_canonical h'] at hform
  exact (Except.ok.inj hform).symm

/-- Without what is passed over, an untidy message still says the same. -/
theorem decode_canonicalForm_untidy :
    decode {} (canonicalForm 0 Sample.untidyMessage) [] =
      .ok ⟨[Sample.literal 7 1, (Sample.literal 7 1).wrapper], [(Sample.literal 7 1).wrapper],
        ⟨1⟩, ⟨2⟩⟩ ∧
    (∀ message, decode {} (0xbb :: Sample.untidyMessage.tail) [] = .ok message →
      message.newSegments = [Sample.literal 7 1, (Sample.literal 7 1).wrapper]) ∧
    ∃ message, encode {} [] [Sample.tree 1 2, Sample.literal 8 4] ⟨1⟩ ⟨2⟩ = .ok message ∧
      canonicalForm 0 message.bytes = message.bytes := by
  have distinct : CollisionFree (involved [] [Sample.tree 1 2, Sample.literal 8 4]) := by
    decide +kernel
  have hfits : Fits {} [] (notices [] [Sample.tree 1 2, Sample.literal 8 4]) := by
    decide +kernel
  have hencode := (encode_eq_ok_iff {} distinct ⟨1⟩ ⟨2⟩ _).mpr ⟨hfits, rfl⟩
  have hform := decode_canonicalForm.1 Sample.decode_untidyMessage
  have hsent := decode_canonicalForm.2.2 hencode
  refine ⟨hform, ?_, _, hencode, hsent⟩
  intro other hother
  rw [← decode_canonicalForm.2.1 Sample.decode_untidyMessage hother rfl]

example :
    canonicalForm 0 Sample.untidyMessage = (Header.standard 2 ⟨1⟩ ⟨2⟩).toBytes ++
      [0, 1, 0, 0] ++ BigEndian.u64 7 ++ BigEndian.u64 Sample.isdAsn.packed ++
      [3, 1, 0, 0, 0, 0] ++ [5] :=
  rfl

end SegmentWire
