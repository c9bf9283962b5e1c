import Mathlib.Algebra.GroupWithZero.Nat
import SegmentWire.Message.Decoding
import SegmentWire.Proofs.Interfaces
import SegmentWire.Proofs.Results
import SegmentWire.Proofs.Subsegments

/-!
# Records on the wire

A record in a message has parts that its reader passes over: six bits of the flags
and the options. `WireRecord` keeps them, so that every record that can be read is
the wire form of one. Reading it takes exactly its bytes, and what it says depends
on its entries and on the segments numbered so far.
-/
namespace SegmentWire

/-- A record as it stands in a message. -/
structure WireRecord where
  flags : UInt8
  payload : Payload
  options : Bytes
  kind_eq : (RecordFlags.ofByte flags).kind = payload.kind
  count_le : payload.count ≤ 255
  options_le : options.length ≤ 65535

namespace WireRecord

def accepted (w : WireRecord) : Bool :=
  (RecordFlags.ofByte w.flags).accepted

def toBytes (w : WireRecord) : Bytes :=
  w.flags :: UInt8.ofNat w.payload.count ::
    (BigEndian.u16 (UInt16.ofNat w.options.length) ++ (w.payload.toBytes ++ w.options))

/-- Bytes of the record, with its options. -/
def size (w : WireRecord) : Nat :=
  recordHeadLength + w.payload.count * w.payload.kind.entryLength + w.options.length

/-- A record as the encoder writes it. -/
def ofRecord (r : Record) (h : r.payload.count ≤ 255) : WireRecord where
  flags := r.flags.toByte
  payload := r.payload
  options := []
  kind_eq := by rw [RecordFlags.ofByte_toByte, Record.flags]
  count_le := h
  options_le := Nat.zero_le _

@[simp] lemma toBytes_ofRecord (r : Record) (h : r.payload.count ≤ 255) :
    (ofRecord r h).toBytes = r.toBytes := by
  simp [toBytes, ofRecord, Record.toBytes]

@[simp] lemma accepted_ofRecord (r : Record) (h : r.payload.count ≤ 255) :
    (ofRecord r h).accepted = r.accepted := by
  rw [accepted, ofRecord, RecordFlags.ofByte_toByte, Record.flags]

end WireRecord

/-! ### Entries -/

lemma toU16_u16_pair (n : UInt16) : ∃ high low, BigEndian.u16 n = [high, low] ∧
    BigEndian.toU16 [high, low] = n := by
  have hpair : BigEndian.u16 n = [UInt8.ofNat (n.toNat / 256), UInt8.ofNat n.toNat] := rfl
  exact ⟨_, _, hpair, hpair ▸ BigEndian.toU16_u16 n⟩

lemma readReferences_flatMap (positions : List UInt16) :
    readReferences (positions.flatMap BigEndian.u16) = positions := by
  induction positions with
  | nil => rfl
  | cons n positions ih =>
    obtain ⟨high, low, hpair, hvalue⟩ := toU16_u16_pair n
    rw [List.flatMap_cons, hpair, List.cons_append, List.cons_append, List.nil_append,
      readReferences, hvalue, ih]

lemma exists_references {count : Nat} {bs : Bytes} (h : bs.length = count * referenceLength) :
    ∃ positions : List UInt16, positions.length = count ∧
      positions.flatMap BigEndian.u16 = bs := by
  induction count generalizing bs with
  | zero =>
    rw [Nat.zero_mul] at h
    exact ⟨[], rfl, (List.length_eq_zero_iff.mp h).symm⟩
  | succ count ih =>
    match bs with
    | [] => simp [referenceLength] at h
    | [_] =>
      simp only [List.length_singleton, referenceLength] at h
      omega
    | high :: low :: rest =>
      have hrest : rest.length = count * referenceLength := by
        simp only [List.length_cons, referenceLength] at *
        omega
      obtain ⟨positions, hcount, hbytes⟩ := ih hrest
      refine ⟨BigEndian.toU16 [high, low] :: positions, by simp [hcount], ?_⟩
      rw [List.flatMap_cons, BigEndian.u16_toU16 rfl, hbytes]
      rfl

namespace Payload

/-- The positions that the entries name. -/
def positions : Payload → List UInt16
  | interfaces _ => []
  | references positions => positions

@[simp] lemma length_toBytes (payload : Payload) :
    payload.toBytes.length = payload.count * payload.kind.entryLength := by
  cases payload with
  | interfaces hops => exact PathInterface.length_encodeList hops
  | references positions =>
    have hsum : ∀ ps : List UInt16, (ps.flatMap BigEndian.u16).length = ps.length * 2 := by
      intro ps
      induction ps with
      | nil => rfl
      | cons p ps ih =>
        rw [List.flatMap_cons, List.length_append, ih, BigEndian.length_u16, List.length_cons]
        omega
    exact hsum positions

/-- Bytes of the right length are the entries of a record of either kind. -/
lemma exists_toBytes {kind : SegmentKind} {count : Nat} {bs : Bytes}
    (h : bs.length = count * kind.entryLength) :
    ∃ payload : Payload, payload.kind = kind ∧ payload.count = count ∧ payload.toBytes = bs := by
  cases kind with
  | literal =>
    refine ⟨.interfaces (PathInterface.ofChunks count bs), rfl,
      PathInterface.length_ofChunks count bs, ?_⟩
    have hbytes := PathInterface.encodeList_ofChunks (Nat.le_of_eq h.symm)
    rwa [← show bs.length = count * PathInterface.wireLength from h, List.take_length] at hbytes
  | composition =>
    obtain ⟨positions, hcount, hbytes⟩ := exists_references h
    exact ⟨.references positions, rfl, hcount, hbytes⟩

end Payload

namespace WireRecord

@[simp] lemma length_toBytes (w : WireRecord) : w.toBytes.length = w.size := by
  simp only [toBytes, size, List.length_cons, List.length_append, BigEndian.length_u16,
    Payload.length_toBytes, recordHeadLength]
  omega

lemma length_flatMap_toBytes (ws : List WireRecord) :
    (ws.flatMap toBytes).length = (ws.map size).sum := by
  induction ws with
  | nil => rfl
  | cons w ws ih =>
    rw [List.flatMap_cons, List.length_append, ih, length_toBytes, List.map_cons, List.sum_cons]

/-- The flags that matter are known from the entries and the accepted bit. -/
lemma ofByte_flags (w : WireRecord) :
    RecordFlags.ofByte w.flags = ⟨w.payload.kind, w.accepted⟩ := by
  rw [← w.kind_eq]
  rfl

lemma toNat_count (w : WireRecord) : (UInt8.ofNat w.payload.count).toNat = w.payload.count :=
  UInt8.toNat_ofNat_of_lt' (Nat.lt_of_le_of_lt w.count_le (by decide))

lemma toNat_optionLength (w : WireRecord) :
    (UInt16.ofNat w.options.length).toNat = w.options.length :=
  UInt16.toNat_ofNat_of_lt' (Nat.lt_of_le_of_lt w.options_le (by decide))

/-- The fixed part of a record, byte by byte, tells the lengths of its entries and options. -/
lemma toBytes_append_eq (w : WireRecord) (rest : Bytes) :
    ∃ length high low, w.toBytes ++ rest =
        w.flags :: length :: high :: low :: (w.payload.toBytes ++ (w.options ++ rest)) ∧
      length = UInt8.ofNat w.payload.count ∧
      length.toNat * (RecordFlags.ofByte w.flags).kind.entryLength = w.payload.toBytes.length ∧
      (BigEndian.toU16 [high, low]).toNat = w.options.length := by
  obtain ⟨high, low, hpair, hvalue⟩ := toU16_u16_pair (UInt16.ofNat w.options.length)
  refine ⟨_, high, low, ?_, rfl, ?_, ?_⟩
  · simp [toBytes, hpair]
  · rw [w.toNat_count, w.kind_eq, Payload.length_toBytes]
  · rw [hvalue, w.toNat_optionLength]

end WireRecord

/-! ### Reading -/

namespace Cursor

@[simp] lemma take_append {bs : Bytes} {n : Nat} (offset : Nat) (rest : Bytes)
    (h : bs.length = n) :
    (⟨offset, bs ++ rest⟩ : Cursor).take n = .ok (bs, ⟨offset + n, rest⟩) := by
  rw [take, List.take_left' h, List.drop_left' h, if_pos h]

lemma take_eq_ok_iff {cursor next : Cursor} {n : Nat} {bs : Bytes} :
    cursor.take n = .ok (bs, next) ↔
      bs.length = n ∧ cursor.rest = bs ++ next.rest ∧ next.offset = cursor.offset + n := by
  obtain ⟨offset, rest⟩ := cursor
  obtain ⟨nextOffset, nextRest⟩ := next
  constructor
  · intro h
    unfold take at h
    by_cases hlength : (rest.take n).length = n
    · rw [if_pos hlength] at h
      cases h
      exact ⟨hlength, (List.take_append_drop n rest).symm, rfl⟩
    · rw [if_neg hlength] at h
      cases h
  · intro h
    obtain ⟨hlength, hrest, hoffset⟩ := h
    simp only at hrest hoffset
    rw [hrest, hoffset]
    exact take_append offset nextRest hlength

end Cursor

namespace RecordHead

lemma read_append (offset : Nat) (flags count : UInt8) (options : UInt16) (rest : Bytes) :
    read ⟨offset, flags :: count :: (BigEndian.u16 options ++ rest)⟩ =
      .ok (⟨.ofByte flags, count.toNat, options.toNat⟩, ⟨offset + recordHeadLength, rest⟩) := by
  have hflags : (⟨offset, flags :: count :: (BigEndian.u16 options ++ rest)⟩ : Cursor).take 1 =
      .ok ([flags], ⟨offset + 1, count :: (BigEndian.u16 options ++ rest)⟩) :=
    @Cursor.take_append [flags] 1 offset _ rfl
  have hcount : (⟨offset + 1, count :: (BigEndian.u16 options ++ rest)⟩ : Cursor).take 1 =
      .ok ([count], ⟨offset + 1 + 1, BigEndian.u16 options ++ rest⟩) :=
    @Cursor.take_append [count] 1 (offset + 1) _ rfl
  have hoptions := Cursor.take_append (offset + 1 + 1) rest (BigEndian.length_u16 options)
  simp only [read, hflags, hcount, hoptions, ok_bind, BigEndian.toU16_u16]
  rfl

lemma read_eq_ok {cursor next : Cursor} {head : RecordHead} (h : read cursor = .ok (head, next)) :
    ∃ flags count options, cursor.rest = flags :: count :: (BigEndian.u16 options ++ next.rest) ∧
      head = ⟨.ofByte flags, count.toNat, options.toNat⟩ := by
  obtain ⟨⟨flags, afterFlags⟩, hflags, h⟩ := bind_eq_ok.mp h
  obtain ⟨⟨count, afterCount⟩, hcount, h⟩ := bind_eq_ok.mp h
  obtain ⟨⟨options, afterOptions⟩, hoptions, h⟩ := bind_eq_ok.mp h
  cases h
  obtain ⟨hflags, hrest, -⟩ := Cursor.take_eq_ok_iff.mp hflags
  obtain ⟨hcount, hafterFlags, -⟩ := Cursor.take_eq_ok_iff.mp hcount
  obtain ⟨hoptions, hafterCount, -⟩ := Cursor.take_eq_ok_iff.mp hoptions
  obtain ⟨flags, rfl⟩ := List.length_eq_one_iff.mp hflags
  obtain ⟨count, rfl⟩ := List.length_eq_one_iff.mp hcount
  refine ⟨flags, count, BigEndian.toU16 options, ?_, rfl⟩
  rw [hrest, hafterFlags, hafterCount, BigEndian.u16_toU16 hoptions]
  rfl

end RecordHead

namespace Incoming

/-- The segment that the entries of a record stand for. -/
def denote (config : Config) (inc : Incoming) : Payload → Except CodecError Segment
  | .interfaces hops => .ok (.literal hops)
  | .references positions => do
    let children ← positions.mapM (inc.resolve config)
    let s := Segment.ofSegments children
    if config.maxDepth < s.height then .error (.nestingTooDeep config.maxDepth) else .ok s

lemma readSegment_append (config : Config) (inc : Incoming) (head : RecordHead) (offset : Nat)
    (payload : Payload) (rest : Bytes) (hkind : head.flags.kind = payload.kind)
    (hcount : head.count = payload.count) (hsmall : payload.count ≤ 255) :
    inc.readSegment config head ⟨offset, payload.toBytes ++ rest⟩ =
      inc.denote config payload >>= fun s =>
        .ok (s, ⟨offset + payload.toBytes.length, rest⟩) := by
  have hlength : payload.toBytes.length = head.count * head.flags.kind.entryLength := by
    rw [Payload.length_toBytes, hkind, hcount]
  rw [readSegment, Cursor.take_append offset rest hlength, ok_bind, hlength]
  cases payload with
  | interfaces hops =>
    have hread : PathInterface.decodeList (PathInterface.encodeList hops ++ []) hops.length =
        .ok hops :=
      PathInterface.decodeList_encodeList_iff.mpr (Nat.lt_of_le_of_lt hsmall (by decide))
    rw [List.append_nil] at hread
    rw [hkind, hcount]
    simp only [Payload.kind, Payload.count, Payload.toBytes, hread, ok_bind, denote]
  | references positions =>
    rw [hkind]
    simp only [Payload.kind, Payload.toBytes, readReferences_flatMap, denote]
    cases positions.mapM (inc.resolve config) with
    | error e => rfl
    | ok children =>
      simp only [ok_bind]
      split <;> rfl

/-- Reading a record takes its bytes and numbers the segment that its entries stand for. -/
theorem readRecord_append (config : Config) (inc : Incoming) (offset : Nat) (w : WireRecord)
    (rest : Bytes) :
    inc.readRecord config ⟨offset, w.toBytes ++ rest⟩ =
      inc.denote config w.payload >>= fun s =>
        .ok (inc.add (.ofByte w.flags) s, ⟨offset + w.toBytes.length, rest⟩) := by
  have hbytes : w.toBytes ++ rest = w.flags :: UInt8.ofNat w.payload.count ::
      (BigEndian.u16 (UInt16.ofNat w.options.length) ++
        (w.payload.toBytes ++ (w.options ++ rest))) := by
    simp [WireRecord.toBytes]
  have hlength : w.toBytes.length =
      recordHeadLength + w.payload.toBytes.length + w.options.length := by
    rw [WireRecord.length_toBytes, WireRecord.size, Payload.length_toBytes]
  rw [readRecord, hbytes, RecordHead.read_append, ok_bind]
  simp only [w.toNat_count, w.toNat_optionLength]
  rw [readSegment_append config inc _ _ w.payload _ w.kind_eq rfl w.count_le]
  cases inc.denote config w.payload with
  | error e => rfl
  | ok s =>
    simp only [ok_bind]
    rw [Cursor.take_append _ rest rfl, ok_bind, hlength, Nat.add_assoc, Nat.add_assoc,
      Nat.add_assoc]

/-- Every record that can be read is the wire form of one. -/
theorem readRecord_eq_ok {config : Config} {inc next : Incoming} {cursor last : Cursor}
    (h : inc.readRecord config cursor = .ok (next, last)) :
    ∃ (w : WireRecord) (s : Segment), cursor.rest = w.toBytes ++ last.rest ∧
      inc.denote config w.payload = .ok s ∧ next = inc.add (.ofByte w.flags) s := by
  have hrecord := h
  obtain ⟨⟨head, afterHead⟩, hhead, h⟩ := bind_eq_ok.mp h
  obtain ⟨⟨s, afterEntries⟩, hsegment, h⟩ := bind_eq_ok.mp h
  obtain ⟨⟨options, afterOptions⟩, hoptions, h⟩ := bind_eq_ok.mp h
  cases h
  obtain ⟨flags, count, optionLength, hrest, rfl⟩ := RecordHead.read_eq_ok hhead
  obtain ⟨⟨entries, afterTake⟩, hentries, hsegment⟩ := bind_eq_ok.mp hsegment
  have hafter : afterTake = afterEntries := by
    simp only at hsegment
    split at hsegment
    · obtain ⟨_, _, hsegment⟩ := bind_eq_ok.mp hsegment
      cases hsegment
      rfl
    · obtain ⟨_, _, hsegment⟩ := bind_eq_ok.mp hsegment
      split at hsegment
      · cases hsegment
      · cases hsegment
        rfl
  obtain ⟨hentriesLength, hentriesRest, -⟩ := Cursor.take_eq_ok_iff.mp hentries
  obtain ⟨hoptionsLength, hoptionsRest, -⟩ := Cursor.take_eq_ok_iff.mp hoptions
  obtain ⟨payload, hkind, hcount, hbytes⟩ := Payload.exists_toBytes hentriesLength
  let w : WireRecord := {
    flags := flags
    payload := payload
    options := options
    kind_eq := hkind.symm
    count_le := by
      rw [hcount]
      exact Nat.le_of_lt_succ count.toNat_lt
    options_le := by
      rw [hoptionsLength]
      exact Nat.le_of_lt_succ optionLength.toNat_lt }
  have hcursor : cursor.rest = w.toBytes ++ last.rest := by
    rw [hrest, hentriesRest, hafter, hoptionsRest, ← hbytes]
    simp [w, WireRecord.toBytes, hcount, hoptionsLength]
  have hread := readRecord_append config inc cursor.offset w last.rest
  rw [← hcursor, hrecord] at hread
  obtain ⟨t, ht, hadd⟩ := bind_eq_ok.mp hread.symm
  exact ⟨w, t, hcursor, ht, (congrArg Prod.fst (Except.ok.inj hadd)).symm⟩

end Incoming

end SegmentWire
