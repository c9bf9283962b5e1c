import SegmentWire.Proofs.Headers
import SegmentWire.Proofs.WireRecords
import SegmentWire.Sample

/-!
# What is decoded

A byte string decodes exactly if it is a header, as many records as the header
counts beyond the cache, and possibly trailing bytes, and if the records stand for
segments one after the other.
-/
namespace SegmentWire

namespace Incoming

/-- A receiver that has numbered its cache. -/
def ofCache (cache : List Segment) : Incoming :=
  ⟨cache.toArray, #[]⟩

/-- Numbers the segments that records stand for. -/
def denoteAll (config : Config) : Incoming → List WireRecord → Except CodecError Incoming
  | inc, [] => .ok inc
  | inc, w :: ws => do
    let s ← inc.denote config w.payload
    (inc.add (.ofByte w.flags) s).denoteAll config ws

lemma denoteAll_concat (config : Config) (inc : Incoming) (ws : List WireRecord) (w : WireRecord) :
    inc.denoteAll config (ws ++ [w]) = inc.denoteAll config ws >>= fun inc =>
      inc.denote config w.payload >>= fun s => .ok (inc.add (.ofByte w.flags) s) := by
  induction ws generalizing inc with
  | nil =>
    rw [List.nil_append, denoteAll, denoteAll, ok_bind]
    rfl
  | cons v ws ih =>
    rw [List.cons_append, denoteAll, denoteAll]
    cases inc.denote config v.payload with
    | error e => rfl
    | ok s => exact ih _

theorem readRecords_append (config : Config) (inc : Incoming) (offset : Nat)
    (ws : List WireRecord) (rest : Bytes) :
    readRecords config ws.length inc ⟨offset, ws.flatMap WireRecord.toBytes ++ rest⟩ =
      inc.denoteAll config ws >>= fun inc =>
        .ok (inc, ⟨offset + (ws.flatMap WireRecord.toBytes).length, rest⟩) := by
  induction ws generalizing inc offset with
  | nil => rfl
  | cons w ws ih =>
    rw [List.length_cons, readRecords, List.flatMap_cons, List.append_assoc, readRecord_append,
      denoteAll]
    cases inc.denote config w.payload with
    | error e => rfl
    | ok s =>
      simp only [ok_bind]
      rw [ih, List.length_append, Nat.add_assoc]

theorem readRecords_eq_ok {config : Config} {count : Nat} {inc next : Incoming}
    {cursor last : Cursor} (h : readRecords config count inc cursor = .ok (next, last)) :
    ∃ ws : List WireRecord, ws.length = count ∧
      cursor.rest = ws.flatMap WireRecord.toBytes ++ last.rest ∧
      inc.denoteAll config ws = .ok next := by
  induction count generalizing inc cursor with
  | zero =>
    cases h
    exact ⟨[], rfl, rfl, rfl⟩
  | succ count ih =>
    rw [readRecords] at h
    cases hread : inc.readRecord config cursor with
    | error e =>
      rw [hread] at h
      cases h
    | ok result =>
      obtain ⟨afterRecord, middle⟩ := result
      rw [hread] at h
      obtain ⟨w, s, hrest, hs, rfl⟩ := readRecord_eq_ok hread
      obtain ⟨ws, hcount, hmiddle, hdenote⟩ := ih h
      refine ⟨w :: ws, by rw [List.length_cons, hcount], ?_, ?_⟩
      · rw [hrest, hmiddle, List.flatMap_cons, List.append_assoc]
      · rw [denoteAll, hs, ok_bind, hdenote]

end Incoming

/-- What a receiver knows in the end, as the outcome of decoding. -/
def DecodedMessage.ofIncoming (header : Header) (cache : List Segment) (inc : Incoming) :
    DecodedMessage where
  newSegments := inc.known.toList.drop cache.length
  acceptedSegments := inc.accepted.toList
  source := header.source
  destination := header.destination

/-- The end of decoding, where the bytes after the last record are looked at. -/
def Incoming.conclude (config : Config) (header : Header) (cache : List Segment) (inc : Incoming)
    (last : Cursor) : Except CodecError DecodedMessage :=
  if config.allowTrailing = false ∧ 0 < last.rest.length then
    .error (.trailingBytes last.rest.length)
  else .ok (.ofIncoming header cache inc)

lemma Incoming.conclude_eq_ok_iff {config : Config} {header : Header} {cache : List Segment}
    {inc : Incoming} {last : Cursor} {message : DecodedMessage} :
    inc.conclude config header cache last = .ok message ↔
      (config.allowTrailing = true ∨ last.rest = []) ∧ message = .ofIncoming header cache inc := by
  unfold conclude
  by_cases h : config.allowTrailing = false ∧ 0 < last.rest.length
  · rw [if_pos h]
    obtain ⟨hforbidden, hrest⟩ := h
    simp [hforbidden, List.length_pos_iff.mp hrest]
  · have hallowed : config.allowTrailing = true ∨ last.rest = [] := by
      rw [not_and_or, Bool.not_eq_false, List.length_pos_iff, not_not] at h
      exact h
    rw [if_neg h, Except.ok.injEq]
    exact ⟨fun hmessage => ⟨hallowed, hmessage.symm⟩, fun hmessage => hmessage.2.symm⟩

lemma decode_of_parse {config : Config} {cache : List Segment} {bs : Bytes} {header : Header}
    (h : Header.parse bs = .ok header) :
    decode config bs cache =
      if header.total.toNat < cache.length then
        .error (.malformed (.totalBelowCache header.total.toNat cache.length))
      else
        Incoming.readRecords config (header.total.toNat - cache.length) (.ofCache cache)
          ⟨header.length.toNat, bs.drop header.length.toNat⟩ >>= fun result =>
            result.1.conclude config header cache result.2 := by
  rw [decode, h, ok_bind]
  by_cases htotal : header.total.toNat < cache.length
  · simp only [if_pos htotal, error_bind]
  · simp only [if_neg htotal]
    refine congrArg _ (funext fun result => ?_)
    cases htrailing : config.allowTrailing <;>
      simp [Incoming.conclude, DecodedMessage.ofIncoming, htrailing]

/-- A header, records and trailing bytes that make up a message for a receiver with a cache. -/
structure Layout (config : Config) (cache : List Segment) (bs : Bytes) where
  header : Header
  records : List WireRecord
  trailing : Bytes
  parse_eq : Header.parse bs = .ok header
  total_eq : header.total.toNat = cache.length + records.length
  bytes_eq : bs.drop header.length.toNat = records.flatMap WireRecord.toBytes ++ trailing
  allowed : config.allowTrailing = true ∨ trailing = []

namespace Layout

variable {config : Config} {cache : List Segment} {bs : Bytes}

/-- Records after a header that counts them, with nothing after them. -/
def standard {total : Nat} (records : List WireRecord)
    (total_eq : total = cache.length + records.length) (hlt : total < 65536)
    (source destination : IsdAsn) :
    Layout config cache ((Header.standard (UInt16.ofNat total) source destination).toBytes ++
      records.flatMap WireRecord.toBytes) where
  header := .standard (UInt16.ofNat total) source destination
  records
  trailing := []
  parse_eq := Header.parse_toBytes_append _ _
  total_eq := (UInt16.toNat_ofNat_of_lt' hlt).trans total_eq
  bytes_eq := by
    rw [List.append_nil]
    exact List.drop_left' (Header.length_toBytes _)
  allowed := .inr rfl

lemma trailing_eq_nil (layout : Layout config cache bs) (complete : config.allowTrailing = false) :
    layout.trailing = [] := by
  obtain hallowed | hnone := layout.allowed
  · rw [complete] at hallowed
    cases hallowed
  · exact hnone

end Layout

/-- After a header that counts them, records are read one after the other, and then the bytes that
follow them are looked at. -/
theorem decode_of_records {config : Config} {cache : List Segment} {bs : Bytes} {header : Header}
    {records : List WireRecord} {rest : Bytes} (hparse : Header.parse bs = .ok header)
    (htotal : header.total.toNat = cache.length + records.length)
    (hbytes : bs.drop header.length.toNat = records.flatMap WireRecord.toBytes ++ rest) :
    decode config bs cache = (Incoming.ofCache cache).denoteAll config records >>= fun inc =>
      inc.conclude config header cache
        ⟨header.length.toNat + (records.flatMap WireRecord.toBytes).length, rest⟩ := by
  have hcount : header.total.toNat - cache.length = records.length := by omega
  rw [decode_of_parse hparse, if_neg (by omega), hbytes, hcount, Incoming.readRecords_append]
  cases (Incoming.ofCache cache).denoteAll config records with
  | error e => rfl
  | ok inc => rfl

/-- Bytes that are laid out as a message decode to what their records stand for. -/
theorem decode_of_layout {config : Config} {cache : List Segment} {bs : Bytes}
    (layout : Layout config cache bs) :
    decode config bs cache = (Incoming.ofCache cache).denoteAll config layout.records >>= fun inc =>
      .ok (.ofIncoming layout.header cache inc) := by
  rw [decode_of_records layout.parse_eq layout.total_eq layout.bytes_eq]
  cases (Incoming.ofCache cache).denoteAll config layout.records with
  | error e => rfl
  | ok inc => exact Incoming.conclude_eq_ok_iff.mpr ⟨layout.allowed, rfl⟩

theorem decode_eq_ok_iff {config : Config} {cache : List Segment} {bs : Bytes}
    {message : DecodedMessage} :
    decode config bs cache = .ok message ↔
      ∃ (layout : Layout config cache bs) (inc : Incoming),
        (Incoming.ofCache cache).denoteAll config layout.records = .ok inc ∧
          message = .ofIncoming layout.header cache inc := by
  constructor
  · intro h
    obtain ⟨header, hheader, -⟩ := bind_eq_ok.mp h
    rw [decode_of_parse hheader] at h
    by_cases htotal : header.total.toNat < cache.length
    · rw [if_pos htotal] at h
      cases h
    · rw [if_neg htotal] at h
      obtain ⟨⟨inc, last⟩, hread, hconclude⟩ := bind_eq_ok.mp h
      obtain ⟨ws, hcount, hrest, hinc⟩ := Incoming.readRecords_eq_ok hread
      obtain ⟨hallowed, hmessage⟩ := Incoming.conclude_eq_ok_iff.mp hconclude
      exact ⟨⟨header, ws, last.rest, hheader, by omega, hrest, hallowed⟩, inc, hinc, hmessage⟩
  · intro h
    obtain ⟨layout, inc, hinc, rfl⟩ := h
    rw [decode_of_layout layout, hinc, ok_bind]

/-- What a receiver passes over does not keep a message from being decoded. -/
lemma Sample.decode_untidyMessage :
    decode {} untidyMessage [] =
      .ok ⟨[literal 7 1, (literal 7 1).wrapper], [(literal 7 1).wrapper], ⟨1⟩, ⟨2⟩⟩ := rfl

end SegmentWire
