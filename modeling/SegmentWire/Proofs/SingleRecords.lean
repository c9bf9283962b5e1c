import SegmentWire.Proofs.RoundTrip

/-!
# Single records

A record can be written with any table that has the children of its segment, whatever
else the table holds and however it came about. A receiver that holds the children
where the table has them reads the record back as the segment.
-/
namespace SegmentWire

namespace IndexTable

variable {table : IndexTable}

lemma contains_iff_get? {f : Fingerprint} :
    table.contains f = true ↔ ∃ position, table.get? f = some position := by
  rw [contains, Std.TreeMap.contains_eq_isSome_getElem?]
  exact Option.isSome_iff_exists

lemma reference_of_contains {f : Fingerprint} (h : table.contains f = true) :
    ∃ position, table.reference f = .ok position := by
  obtain ⟨position, hposition⟩ := contains_iff_get?.mp h
  exact ⟨position, by rw [reference, hposition]⟩

lemma reference_of_not_contains {f : Fingerprint} (h : table.contains f = false) :
    table.reference f = .error (.unindexedChild f.hex) := by
  have hnone : table.get? f = none := by
    rw [Option.eq_none_iff_forall_ne_some]
    intro position hposition
    rw [contains_iff_get?.mpr ⟨position, hposition⟩] at h
    cases h
  rw [reference, hnone]

/-- The position of a segment that is registered. -/
def positionOf (table : IndexTable) (s : Segment) : UInt16 :=
  (table.get? s.fingerprint).getD 0

lemma get?_of_contains {s : Segment} (h : table.contains s.fingerprint = true) :
    table.get? s.fingerprint = some (table.positionOf s) := by
  obtain ⟨position, hposition⟩ := contains_iff_get?.mp h
  rw [positionOf, hposition, Option.getD_some]

variable {s : Segment}

lemma record_of_long (accepted : Bool) (h : 255 < s.length) :
    table.record accepted s = .error (.segmentTooLong s.length) := if_pos h

/-- Without a position for one of the children, the first such child is reported. -/
lemma record_of_unregistered (accepted : Bool) {before after : List Segment} {c : Segment}
    (hlength : s.length ≤ 255) (hchildren : s.children = before ++ c :: after)
    (hbefore : ∀ d ∈ before, table.contains d.fingerprint = true)
    (hc : table.contains c.fingerprint = false) :
    table.record accepted s = .error (.unindexedChild c.fingerprint.hex) := by
  cases s with
  | literal interfaces => simp at hchildren
  | composition segments =>
    have hreferences : segments.fingerprints.mapM table.reference =
        .error (.unindexedChild c.fingerprint.hex) := by
      have hfingerprints : segments.fingerprints =
          before.map Segment.fingerprint ++ c.fingerprint :: after.map Segment.fingerprint := by
        rw [SegmentList.fingerprints_eq_map, ← List.map_cons, ← List.map_append, ← hchildren]
        rfl
      rw [hfingerprints]
      refine mapM_of_first_error ?_ (reference_of_not_contains hc)
      rw [List.forall_mem_map]
      exact fun d hd => reference_of_contains (hbefore d hd)
    rw [record, if_neg (Nat.not_lt.mpr hlength)]
    simp only [hreferences, error_bind]

lemma record_of_registered (accepted : Bool) (hlength : s.length ≤ 255)
    (hchildren : ∀ c ∈ s.children, table.contains c.fingerprint = true) :
    table.record accepted s = .ok ⟨accepted, s.payload table.positionOf⟩ := by
  rw [record_eq accepted fun c hc => get?_of_contains (hchildren c hc),
    if_neg (Nat.not_lt.mpr hlength)]

/-- No record is written if the segment is too long or has a first child that is not registered,
and one is written otherwise. -/
lemma record_cases (table : IndexTable) (accepted : Bool) (s : Segment) :
    (∃ e, table.record accepted s = .error e) ∨
      (s.length ≤ 255 ∧ ∀ c ∈ s.children, table.contains c.fingerprint = true) := by
  by_cases hlong : 255 < s.length
  · exact .inl ⟨_, record_of_long accepted hlong⟩
  · have hlength := Nat.not_lt.mp hlong
    cases hfirst : s.children.find? fun c => !table.contains c.fingerprint with
    | none => exact .inr ⟨hlength, by simpa using hfirst⟩
    | some c =>
      obtain ⟨hc, before, after, hchildren, hbefore⟩ := List.find?_eq_some_iff_append.mp hfirst
      have hfails := record_of_unregistered accepted hlength hchildren (by simpa using hbefore)
        (by simpa using hc)
      exact .inl ⟨_, hfails⟩

theorem record_eq_ok_iff {accepted : Bool} {record : Record} :
    table.record accepted s = .ok record ↔
      (s.length ≤ 255 ∧ ∀ c ∈ s.children, table.contains c.fingerprint = true) ∧
        record = ⟨accepted, s.payload table.positionOf⟩ := by
  constructor
  · intro h
    obtain ⟨e, hfails⟩ | ⟨hlength, hchildren⟩ := record_cases table accepted s
    · rw [hfails] at h
      cases h
    · rw [record_of_registered accepted hlength hchildren] at h
      cases h
      exact ⟨⟨hlength, hchildren⟩, rfl⟩
  · rintro ⟨⟨hlength, hchildren⟩, rfl⟩
    exact record_of_registered accepted hlength hchildren

/-- What is written is a record on the wire with the kind of the segment. -/
lemma exists_wireRecord {accepted : Bool} {record : Record}
    (h : table.record accepted s = .ok record) :
    ∃ w : WireRecord, w.toBytes = record.toBytes ∧
      RecordFlags.ofByte w.flags = ⟨s.kind, accepted⟩ ∧
      w.payload = s.payload table.positionOf := by
  obtain ⟨⟨hlength, -⟩, rfl⟩ := record_eq_ok_iff.mp h
  have hcount : (s.payload table.positionOf).count ≤ 255 := by
    rw [Segment.count_payload]
    exact hlength
  refine ⟨.ofRecord ⟨accepted, s.payload table.positionOf⟩ hcount,
    WireRecord.toBytes_ofRecord _ _, ?_, rfl⟩
  rw [WireRecord.ofByte_flags, WireRecord.accepted_ofRecord, ← s.kind_payload table.positionOf]
  rfl

end IndexTable

/-- The children of a segment are numbered as the table has them. -/
def Incoming.Holds (inc : Incoming) (table : IndexTable) (s : Segment) : Prop :=
  ∀ c ∈ s.children, ∀ position, table.get? c.fingerprint = some position →
    inc.known[position.toNat]? = some c

lemma Record.length_toBytes (accepted : Bool) (payload : Payload) :
    (⟨accepted, payload⟩ : Record).toBytes.length =
      recordHeadLength + payload.count * payload.kind.entryLength := by
  simp only [toBytes, List.length_cons, List.length_append, BigEndian.length_u16,
    Payload.length_toBytes, recordHeadLength]
  omega

namespace Incoming

variable {config : Config} {inc : Incoming} {table : IndexTable} {s : Segment}

lemma denote_of_holds (hchildren : ∀ c ∈ s.children, table.contains c.fingerprint = true)
    (hheld : inc.Holds table s) (hheight : s.height ≤ config.maxDepth) :
    inc.denote config (s.payload table.positionOf) = .ok s := by
  refine denote_of_resolve (fun c hc => resolve_eq_ok_iff.mpr ⟨?_, ?_⟩) hheight
  · rw [Array.getElem?_toList]
    exact hheld c hc _ (IndexTable.get?_of_contains (hchildren c hc))
  · have hlt := Segment.height_child_lt hc
    omega

/-- A record is read as its segment where its children are held. -/
theorem readRecord_of_holds {accepted : Bool} {record : Record}
    (hrecord : table.record accepted s = .ok record) (hheld : inc.Holds table s)
    (hheight : s.height ≤ config.maxDepth) (offset : Nat) (rest : Bytes) :
    inc.readRecord config ⟨offset, record.toBytes ++ rest⟩ =
      .ok (inc.add ⟨s.kind, accepted⟩ s, ⟨offset + record.toBytes.length, rest⟩) := by
  obtain ⟨w, hbytes, hflags, hpayload⟩ := IndexTable.exists_wireRecord hrecord
  obtain ⟨⟨-, hchildren⟩, -⟩ := IndexTable.record_eq_ok_iff.mp hrecord
  rw [← hbytes, readRecord_append, hpayload, denote_of_holds hchildren hheld hheight, ok_bind,
    hflags]

end Incoming

/-- Behind records that were read, and under a header that counts it too, the record of a segment
whose children are held makes up a message. -/
theorem decode_concat_record {config : Config} {cache : List Segment} {ws : List WireRecord}
    {inc : Incoming} {table : IndexTable} {accepted : Bool} {s : Segment} {record : Record}
    (hearlier : (Incoming.ofCache cache).denoteAll config ws = .ok inc)
    (hrecord : table.record accepted s = .ok record) (hheld : inc.Holds table s)
    (hheight : s.height ≤ config.maxDepth) (hlt : cache.length + (ws.length + 1) < 65536)
    (source destination : IsdAsn) :
    let header := Header.standard (UInt16.ofNat (cache.length + (ws.length + 1))) source destination
    decode config (header.toBytes ++ (ws.flatMap WireRecord.toBytes ++ record.toBytes)) cache =
      .ok (.ofIncoming header cache (inc.add ⟨s.kind, accepted⟩ s)) := by
  obtain ⟨w, hbytes, hflags, hpayload⟩ := IndexTable.exists_wireRecord hrecord
  obtain ⟨⟨-, hchildren⟩, -⟩ := IndexTable.record_eq_ok_iff.mp hrecord
  have hall : (ws ++ [w]).flatMap WireRecord.toBytes =
      ws.flatMap WireRecord.toBytes ++ record.toBytes := by
    rw [List.flatMap_append, List.flatMap_singleton, hbytes]
  have hdenote : (Incoming.ofCache cache).denoteAll config (ws ++ [w]) =
      .ok (inc.add ⟨s.kind, accepted⟩ s) := by
    rw [Incoming.denoteAll_concat, hearlier, ok_bind, hpayload,
      Incoming.denote_of_holds hchildren hheld hheight, ok_bind, hflags]
  intro header
  rw [← hall, decode_of_layout (.standard (ws ++ [w])
    (by rw [List.length_append, List.length_singleton]) hlt source destination)]
  exact bind_eq_ok.mpr ⟨_, hdenote, rfl⟩

/-- With any table, the record of a segment is written exactly if the segment has at most 255
entries and all its children are registered; otherwise the error is that it is too long or else
names the first child that is not registered. What is written has four bytes and those of the
entries, and a receiver that holds the children at their registered positions reads exactly these
bytes, as the segment and with the mark that it was written with. Behind records that were read
before it, it makes up a message of which it is the last. -/
theorem record_agreement (table : IndexTable) (accepted : Bool) (s : Segment) :
    ((∃ record, table.record accepted s = .ok record) ↔
      s.length ≤ 255 ∧ ∀ c ∈ s.children, table.contains c.fingerprint = true) ∧
    (255 < s.length → table.record accepted s = .error (.segmentTooLong s.length)) ∧
    (s.length ≤ 255 → ∀ before c after, s.children = before ++ c :: after →
      (∀ d ∈ before, table.contains d.fingerprint = true) →
      table.contains c.fingerprint = false →
      table.record accepted s = .error (.unindexedChild c.fingerprint.hex)) ∧
    ∀ record, table.record accepted s = .ok record →
      record.toBytes.length =
        4 + s.length * (match s.kind with | .literal => 16 | .composition => 2) ∧
      (∀ (config : Config) (inc : Incoming) (offset : Nat) (rest : Bytes),
        inc.Holds table s → s.height ≤ config.maxDepth →
        inc.readRecord config ⟨offset, record.toBytes ++ rest⟩ =
          .ok (inc.add ⟨s.kind, accepted⟩ s, ⟨offset + record.toBytes.length, rest⟩)) ∧
      ∀ (config : Config) (cache : List Segment) (earlier : List WireRecord) (inc : Incoming)
        (source destination : IsdAsn),
        (Incoming.ofCache cache).denoteAll config earlier = .ok inc →
        inc.Holds table s → s.height ≤ config.maxDepth →
        cache.length + (earlier.length + 1) < 65536 →
        let header :=
          Header.standard (UInt16.ofNat (cache.length + (earlier.length + 1))) source destination
        decode config
            (header.toBytes ++ (earlier.flatMap WireRecord.toBytes ++ record.toBytes)) cache =
          .ok (.ofIncoming header cache (inc.add ⟨s.kind, accepted⟩ s)) := by
  refine ⟨?_, IndexTable.record_of_long accepted, ?_, ?_⟩
  · simp only [IndexTable.record_eq_ok_iff, exists_and_left, exists_eq, and_true]
  · intro hlength before c after
    exact IndexTable.record_of_unregistered accepted hlength
  · intro record hrecord
    refine ⟨?_, fun config inc offset rest hheld hheight =>
        Incoming.readRecord_of_holds hrecord hheld hheight offset rest,
      fun config cache earlier inc source destination hearlier hheld hheight hlt =>
        decode_concat_record hearlier hrecord hheld hheight hlt source destination⟩
    obtain ⟨-, rfl⟩ := IndexTable.record_eq_ok_iff.mp hrecord
    rw [Record.length_toBytes, Segment.count_payload, Segment.kind_payload]
    cases s.kind <;> rfl

/-- A wrapper around a cached literal, written with the table of the cache and read by a receiver
with the same cache. -/
theorem record_agreement_wrapper :
    let leaf := Sample.literal 7 1
    let inc := Incoming.ofCache [leaf]
    ∃ table record, IndexTable.ofCache [leaf] = .ok table ∧ inc.Holds table leaf.wrapper ∧
      table.record true leaf.wrapper = .ok record ∧ record.toBytes.length = 6 ∧
      inc.readRecord {} ⟨0, record.toBytes ++ [5]⟩ =
        .ok (inc.add ⟨.composition, true⟩ leaf.wrapper, ⟨6, [5]⟩) ∧
      decode {} ((Header.standard 2 ⟨1⟩ ⟨2⟩).toBytes ++ record.toBytes) [leaf] =
        .ok ⟨[leaf.wrapper], [leaf.wrapper], ⟨1⟩, ⟨2⟩⟩ := by
  intro leaf inc
  let table : IndexTable := ⟨Std.TreeMap.empty.insert leaf.fingerprint 0, 1⟩
  have hposition : table.get? leaf.fingerprint = some 0 := by
    simp [table, IndexTable.get?]
  have hheld : inc.Holds table leaf.wrapper := by
    intro c hc position hc'
    obtain rfl : c = leaf := by simpa using hc
    obtain rfl : 0 = position := by simpa [hposition] using hc'
    rfl
  obtain ⟨hwritten, -, -, hread⟩ := record_agreement table true leaf.wrapper
  obtain ⟨record, hrecord⟩ := hwritten.mpr ⟨by decide, by
    simpa using IndexTable.contains_iff_get?.mpr ⟨0, hposition⟩⟩
  obtain ⟨hlength, hread, hmessage⟩ := hread record hrecord
  refine ⟨table, record, rfl, hheld, hrecord, hlength, ?_, ?_⟩
  · rw [hread {} inc 0 [5] hheld (by decide), hlength]
    rfl
  · exact hmessage {} [leaf] [] inc ⟨1⟩ ⟨2⟩ rfl hheld (by decide) (by decide)

end SegmentWire
