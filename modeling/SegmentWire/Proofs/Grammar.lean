import SegmentWire.Proofs.Receiving

/-!
# The grammar of messages

A message is a header, a sequence of records and possibly trailing bytes. What a
record stands for follows from its entries and from the segments numbered before
it, so every sequence of records has a reading, whether or not a receiver accepts
it. A receiver accepts exactly those byte strings whose records refer backwards and
stand for segments that are not too tall, and it makes of them what they read.
-/
namespace SegmentWire

/-- The segment that entries stand for, when the known segments are numbered from zero. -/
def Payload.segment (known : List Segment) : Payload → Segment
  | .interfaces hops => .literal hops
  | .references positions => .ofSegments (positions.filterMap fun p => known[p.toNat]?)

/-- What records say, read in order. Each may refer to what is known before it. -/
def readings (known : List Segment) : List WireRecord → List Receipt
  | [] => []
  | w :: ws =>
    let s := w.payload.segment known
    ⟨w.accepted, s⟩ :: readings (known ++ [s]) ws

/-- Each record refers only to positions below its own, when `known` positions come before the
first. -/
def RefersBack (known : Nat) (ws : List WireRecord) : Prop :=
  ∀ i w, ws[i]? = some w → ∀ p ∈ w.payload.positions, p.toNat < known + i

/-- The bytes are a header, the records that it counts beyond the cache and trailing bytes, in a
form that a receiver with the cache accepts. -/
structure Grammatical (config : Config) (cache : List Segment) (bs : Bytes)
    (records : List WireRecord) (trailing : Bytes) : Prop where
  size_ge : 20 ≤ bs.length
  length_ge : 20 ≤ (Header.ofBytes bs).length.toNat
  length_le : (Header.ofBytes bs).length.toNat ≤ bs.length
  total_ge : cache.length ≤ (Header.ofBytes bs).total.toNat
  count_eq : records.length = (Header.ofBytes bs).total.toNat - cache.length
  bytes_eq : bs.drop (Header.ofBytes bs).length.toNat =
    records.flatMap WireRecord.toBytes ++ trailing
  refersBack : RefersBack cache.length records
  height_le : ∀ r ∈ readings cache records, r.segment.height ≤ config.maxDepth
  allowed : config.allowTrailing = true ∨ trailing = []

/-- What a message says. -/
def DecodedMessage.ofReceipts (header : Header) (received : List Receipt) : DecodedMessage where
  newSegments := received.map Receipt.segment
  acceptedSegments := marked true received
  source := header.source
  destination := header.destination

/-- Decoding ends with what has been received. -/
lemma DecodedMessage.ofIncoming_ofReceipts (header : Header) (cache : List Segment)
    (received : List Receipt) :
    ofIncoming header cache (.ofReceipts cache received) = ofReceipts header received := by
  simp [ofIncoming, Incoming.ofReceipts, ofReceipts]

@[simp] lemma length_readings (known : List Segment) (ws : List WireRecord) :
    (readings known ws).length = ws.length := by
  induction ws generalizing known with
  | nil => rfl
  | cons w ws ih => rw [readings, List.length_cons, ih, List.length_cons]

lemma map_accepted_readings (known : List Segment) (ws : List WireRecord) :
    (readings known ws).map Receipt.accepted = ws.map WireRecord.accepted := by
  induction ws generalizing known with
  | nil => rfl
  | cons w ws ih => rw [readings, List.map_cons, ih, List.map_cons]

/-! ### References -/

lemma refersBack_nil (known : Nat) : RefersBack known [] := by
  intro i w hw
  simp at hw

lemma refersBack_cons {known : Nat} {w : WireRecord} {ws : List WireRecord} :
    RefersBack known (w :: ws) ↔
      (∀ p ∈ w.payload.positions, p.toNat < known) ∧ RefersBack (known + 1) ws := by
  constructor
  · intro h
    refine ⟨h 0 w rfl, fun i v hv p hp => ?_⟩
    have hlt := h (i + 1) v hv p hp
    omega
  · intro h i v hv p hp
    cases i with
    | zero =>
      obtain rfl : w = v := by simpa using hv
      exact h.1 p hp
    | succ i =>
      have hlt := h.2 i v hv p hp
      omega

namespace Incoming

variable {config : Config} {inc next : Incoming}

/-- References can be resolved exactly if all are in range, to segments that are not too tall. -/
lemma forall₂_resolve_iff {positions : List UInt16} {children : List Segment} :
    List.Forall₂ (fun p c => inc.resolve config p = .ok c) positions children ↔
      (∀ p ∈ positions, p.toNat < inc.known.toList.length) ∧
        (children = positions.filterMap fun p => inc.known.toList[p.toNat]?) ∧
        ∀ c ∈ children, c.height ≤ config.maxDepth := by
  induction positions generalizing children with
  | nil =>
    rw [List.forall₂_nil_left_iff]
    constructor
    · rintro rfl
      simp
    · exact fun h => h.2.1
  | cons p positions ih =>
    rw [List.forall₂_cons_left_iff, List.forall_mem_cons, List.filterMap_cons]
    constructor
    · rintro ⟨c, rest, hc, hrest, rfl⟩
      obtain ⟨hheld, hheight⟩ := resolve_eq_ok_iff.mp hc
      obtain ⟨hlt, hchildren, hheights⟩ := ih.mp hrest
      refine ⟨⟨(List.getElem?_eq_some_iff.mp hheld).1, hlt⟩, ?_,
        List.forall_mem_cons.mpr ⟨hheight, hheights⟩⟩
      simp only [hheld, ← hchildren]
    · rintro ⟨⟨hp, hlt⟩, hchildren, hheights⟩
      simp only [List.getElem?_eq_getElem hp] at hchildren
      rw [hchildren, List.forall_mem_cons] at hheights
      exact ⟨_, _, resolve_eq_ok_iff.mpr ⟨List.getElem?_eq_getElem hp, hheights.1⟩,
        ih.mpr ⟨hlt, rfl, hheights.2⟩, hchildren⟩

/-- Entries are read as the segment that they stand for, exactly if they refer to what is numbered
and the segment is not too tall. -/
theorem denote_eq_ok_iff {payload : Payload} {s : Segment} :
    inc.denote config payload = .ok s ↔
      (∀ p ∈ payload.positions, p.toNat < inc.known.toList.length) ∧
        (payload.segment inc.known.toList).height ≤ config.maxDepth ∧
        s = payload.segment inc.known.toList := by
  cases payload with
  | interfaces hops => simp [denote, Payload.positions, Payload.segment, eq_comm]
  | references positions =>
    simp only [denote, bind_eq_ok, mapM_eq_ok_iff, forall₂_resolve_iff, build_eq_ok_iff,
      Payload.positions, Payload.segment]
    constructor
    · rintro ⟨children, ⟨hlt, rfl, -⟩, hheight, rfl⟩
      exact ⟨hlt, hheight, rfl⟩
    · rintro ⟨hlt, hheight, rfl⟩
      -- The limit on the composition is a limit on its children.
      refine ⟨_, ⟨hlt, rfl, fun c hc => ?_⟩, hheight, rfl⟩
      rw [← Segment.children_ofSegments (positions.filterMap _)] at hc
      exact Nat.le_trans (Nat.le_of_lt (Segment.height_child_lt hc)) hheight

/-- Records are read one after the other exactly if they refer back and stand for segments that are
not too tall, and then they say what they read. -/
theorem denoteAll_eq_ok_iff {cache : List Segment} {ws : List WireRecord}
    {received : List Receipt} :
    (ofReceipts cache received).denoteAll config ws = .ok next ↔
      RefersBack (cache.length + received.length) ws ∧
        (∀ r ∈ readings (cache ++ received.map Receipt.segment) ws,
          r.segment.height ≤ config.maxDepth) ∧
        next = ofReceipts cache
          (received ++ readings (cache ++ received.map Receipt.segment) ws) := by
  induction ws generalizing received with
  | nil =>
    rw [denoteAll, readings, List.append_nil, Except.ok.injEq, eq_comm]
    simp [refersBack_nil]
  | cons w ws ih =>
    have hknown : (ofReceipts cache received).known.toList =
        cache ++ received.map Receipt.segment := rfl
    simp only [denoteAll, bind_eq_ok, denote_eq_ok_iff, hknown, add_ofReceipts, ih, readings,
      refersBack_cons, List.forall_mem_cons, List.length_append, List.length_map, List.map_append,
      List.map_singleton, List.length_singleton, List.append_assoc, List.singleton_append,
      Nat.add_assoc, WireRecord.accepted]
    constructor
    · rintro ⟨s, ⟨hlt, hheight, rfl⟩, hback, hheights, rfl⟩
      exact ⟨⟨hlt, hback⟩, ⟨hheight, hheights⟩, rfl⟩
    · rintro ⟨⟨hlt, hback⟩, ⟨hheight, hheights⟩, rfl⟩
      exact ⟨_, ⟨hlt, hheight, rfl⟩, hback, hheights, rfl⟩

end Incoming

/-- A message that can be read is in the grammar, and the receiver has built what it says. -/
lemma Layout.grammatical {config : Config} {cache : List Segment} {bs : Bytes} {inc : Incoming}
    (layout : Layout config cache bs)
    (h : (Incoming.ofCache cache).denoteAll config layout.records = .ok inc) :
    Grammatical config cache bs layout.records layout.trailing ∧
      inc = .ofReceipts cache (readings cache layout.records) := by
  rw [Incoming.ofCache_eq_ofReceipts] at h
  obtain ⟨hback, hheights, rfl⟩ := Incoming.denoteAll_eq_ok_iff.mp h
  obtain ⟨⟨hsize, hge, hle⟩, hheader⟩ := Header.parse_eq_ok_iff.mp layout.parse_eq
  have htotal := layout.total_eq
  have hbytes := layout.bytes_eq
  rw [hheader] at htotal hbytes
  refine ⟨⟨hsize, hge, hle, by omega, by omega, hbytes, ?_, ?_, layout.allowed⟩, ?_⟩
  · simpa using hback
  · simpa using hheights
  · simp

/-- A byte string is decoded exactly if it is in the grammar, and then to what its records say: a
literal to its interfaces, a composition to the children at its positions in the cache and the
records before it. -/
theorem decode_iff_grammatical {config : Config} {cache : List Segment} {bs : Bytes}
    {message : DecodedMessage} :
    decode config bs cache = .ok message ↔
      ∃ (records : List WireRecord) (trailing : Bytes),
        Grammatical config cache bs records trailing ∧
        message = .ofReceipts (.ofBytes bs) (readings cache records) := by
  rw [decode_eq_ok_iff]
  constructor
  · rintro ⟨layout, inc, hinc, rfl⟩
    obtain ⟨hgrammatical, rfl⟩ := layout.grammatical hinc
    refine ⟨layout.records, layout.trailing, hgrammatical, ?_⟩
    rw [DecodedMessage.ofIncoming_ofReceipts, ← (Header.parse_eq_ok_iff.mp layout.parse_eq).2]
  · rintro ⟨records, trailing, h, rfl⟩
    have htotal := h.total_ge
    have hcount := h.count_eq
    refine ⟨⟨.ofBytes bs, records, trailing,
      Header.parse_eq_ok_iff.mpr ⟨⟨h.size_ge, h.length_ge, h.length_le⟩, rfl⟩, by omega, h.bytes_eq,
      h.allowed⟩, .ofReceipts cache (readings cache records), ?_,
      (DecodedMessage.ofIncoming_ofReceipts _ _ _).symm⟩
    rw [Incoming.ofCache_eq_ofReceipts]
    refine Incoming.denoteAll_eq_ok_iff.mpr ⟨?_, ?_, ?_⟩
    · simpa using h.refersBack
    · simpa using h.height_le
    · simp

end SegmentWire
