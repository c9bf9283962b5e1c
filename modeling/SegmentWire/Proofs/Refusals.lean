import SegmentWire.Proofs.Truncation

/-!
# Why messages are refused

Records are read one after the other, and the first one at fault ends the reading.
Bytes that do not make up a header or a record are malformed. Apart from that only a
composition can be at fault, and only up to the end of its references: one of them
cannot be resolved, or the composition is too tall. Whatever stands after them, its own
options included, has no part in the error.
-/
namespace SegmentWire

/-- A composition record up to the end of its references. -/
structure CompositionStart where
  flags : UInt8
  optionLength : UInt16
  positions : List UInt16
  kind_eq : (RecordFlags.ofByte flags).kind = .composition
  count_le : positions.length ≤ 255

namespace CompositionStart

def toBytes (start : CompositionStart) : Bytes :=
  start.flags :: UInt8.ofNat start.positions.length ::
    (BigEndian.u16 start.optionLength ++ (Payload.references start.positions).toBytes)

def size (start : CompositionStart) : Nat :=
  recordHeadLength + start.positions.length * referenceLength

@[simp] lemma length_toBytes (start : CompositionStart) : start.toBytes.length = start.size := by
  simp only [toBytes, size, List.length_cons, List.length_append, BigEndian.length_u16,
    Payload.length_toBytes, recordHeadLength]
  rw [Payload.kind, Payload.count, SegmentKind.entryLength]
  omega

lemma toNat_count (start : CompositionStart) :
    (UInt8.ofNat start.positions.length).toNat = start.positions.length :=
  UInt8.toNat_ofNat_of_lt' (Nat.lt_of_le_of_lt start.count_le (by decide))

end CompositionStart

/-- A position names a known segment that is not too tall. -/
def Resolves (config : Config) (known : List Segment) (position : UInt16) : Prop :=
  ∃ s, known[position.toNat]? = some s ∧ s.height ≤ config.maxDepth

/-- What is wrong with the references of a composition, and the error that tells it. The first
reference at fault counts, and the height of the composition itself counts last. -/
inductive ReferenceFault (config : Config) (known : List Segment) (positions : List UInt16) :
    CodecError → Prop
  /-- The first reference at fault is to a position that is not numbered yet. -/
  | unresolvable {earlier later : List UInt16} {p : UInt16} :
    positions = earlier ++ p :: later → (∀ q ∈ earlier, Resolves config known q) →
    known.length ≤ p.toNat →
    ReferenceFault config known positions (.invalidReference p.toNat known.length)
  /-- The first reference at fault is to a segment that is too tall. -/
  | tallChild {earlier later : List UInt16} {p : UInt16} {s : Segment} :
    positions = earlier ++ p :: later → (∀ q ∈ earlier, Resolves config known q) →
    known[p.toNat]? = some s → config.maxDepth < s.height →
    ReferenceFault config known positions (.nestingTooDeep config.maxDepth)
  /-- All references are in order, but the composition is too tall. -/
  | tall : (∀ q ∈ positions, Resolves config known q) →
    config.maxDepth < ((Payload.references positions).segment known).height →
    ReferenceFault config known positions (.nestingTooDeep config.maxDepth)

namespace ReferenceFault

variable {config : Config} {known : List Segment} {positions : List UInt16}

lemma invalidReference_iff {index resolvable : Nat} :
    ReferenceFault config known positions (.invalidReference index resolvable) ↔
      resolvable = known.length ∧ resolvable ≤ index ∧
      ∃ earlier p later, positions = earlier ++ p :: later ∧ p.toNat = index ∧
        ∀ q ∈ earlier, Resolves config known q := by
  constructor
  · intro h
    cases h with
    | unresolvable hsplit hearlier hbeyond =>
      exact ⟨rfl, hbeyond, _, _, _, hsplit, rfl, hearlier⟩
  · rintro ⟨rfl, hbeyond, earlier, p, later, hsplit, rfl, hearlier⟩
    exact .unresolvable hsplit hearlier hbeyond

lemma nestingTooDeep_iff {depth : Nat} :
    ReferenceFault config known positions (.nestingTooDeep depth) ↔
      depth = config.maxDepth ∧
      ((∃ earlier p later s, positions = earlier ++ p :: later ∧
          (∀ q ∈ earlier, Resolves config known q) ∧ known[p.toNat]? = some s ∧ depth < s.height) ∨
        ((∀ q ∈ positions, Resolves config known q) ∧
          depth < ((Payload.references positions).segment known).height)) := by
  constructor
  · intro h
    cases h with
    | tallChild hsplit hearlier hheld htall =>
      exact ⟨rfl, .inl ⟨_, _, _, _, hsplit, hearlier, hheld, htall⟩⟩
    | tall hall htall => exact ⟨rfl, .inr ⟨hall, htall⟩⟩
  · rintro ⟨rfl, ⟨earlier, p, later, s, hsplit, hearlier, hheld, htall⟩ | ⟨hall, htall⟩⟩
    · exact .tallChild hsplit hearlier hheld htall
    · exact .tall hall htall

end ReferenceFault

/-! ### Malformed records -/

lemma Cursor.malformed_of_take {cursor : Cursor} {n : Nat} {e : CodecError}
    (h : cursor.take n = .error e) : ∃ cause, e = .malformed cause := by
  unfold take at h
  by_cases hlength : (cursor.rest.take n).length = n
  · rw [if_pos hlength] at h
    cases h
  · rw [if_neg hlength] at h
    cases h
    exact ⟨_, rfl⟩

lemma RecordHead.malformed_of_read {cursor : Cursor} {e : CodecError}
    (h : read cursor = .error e) : ∃ cause, e = .malformed cause := by
  obtain h | ⟨_, _, h⟩ := bind_eq_error.mp h
  · exact Cursor.malformed_of_take h
  obtain h | ⟨_, _, h⟩ := bind_eq_error.mp h
  · exact Cursor.malformed_of_take h
  obtain h | ⟨_, _, h⟩ := bind_eq_error.mp h
  · exact Cursor.malformed_of_take h
  · cases h

namespace Incoming

variable {config : Config} {inc : Incoming} {e : CodecError}

lemma exists_resolve_iff {p : UInt16} :
    (∃ s, inc.resolve config p = .ok s) ↔ Resolves config inc.known.toList p :=
  exists_congr fun _ => resolve_eq_ok_iff

/-! ### One record -/

lemma resolve_eq_error_iff {p : UInt16} :
    inc.resolve config p = .error e ↔
      (inc.known.toList.length ≤ p.toNat ∧
        e = .invalidReference p.toNat inc.known.toList.length) ∨
      ∃ s, inc.known.toList[p.toNat]? = some s ∧ config.maxDepth < s.height ∧
        e = .nestingTooDeep config.maxDepth := by
  rw [← List.getElem?_eq_none_iff, Array.getElem?_toList, resolve, Array.length_toList]
  cases inc.known[p.toNat]? with
  | none => simp [eq_comm]
  | some s =>
    by_cases hdeep : config.maxDepth < s.height
    · simp [hdeep, eq_comm]
    · simp [hdeep]

/-- References are resolved together exactly if each of them resolves. -/
lemma mapM_resolve_eq_ok_iff {positions : List UInt16} {children : List Segment} :
    positions.mapM (inc.resolve config) = .ok children ↔
      (∀ q ∈ positions, Resolves config inc.known.toList q) ∧
        children = positions.filterMap fun q => inc.known.toList[q.toNat]? := by
  rw [mapM_eq_ok_iff, forall₂_resolve_iff]
  constructor
  · rintro ⟨hlt, rfl, hheights⟩
    refine ⟨fun q hq => ?_, rfl⟩
    have hheld := List.getElem?_eq_getElem (hlt q hq)
    exact ⟨_, hheld, hheights _ (List.mem_filterMap.mpr ⟨q, hq, hheld⟩)⟩
  · rintro ⟨hall, rfl⟩
    refine ⟨fun q hq => ?_, rfl, fun c hc => ?_⟩
    · obtain ⟨s, hheld, -⟩ := hall q hq
      exact (List.getElem?_eq_some_iff.mp hheld).1
    · obtain ⟨q, hq, hc⟩ := List.mem_filterMap.mp hc
      obtain ⟨s, hheld, hheight⟩ := hall q hq
      obtain rfl : s = c := Option.some.inj (hheld.symm.trans hc)
      exact hheight

/-- A composition is refused exactly if its references are at fault. -/
theorem denote_eq_error_iff {positions : List UInt16} :
    inc.denote config (.references positions) = .error e ↔
      ReferenceFault config inc.known.toList positions e := by
  rw [denote, bind_eq_error]
  simp only [mapM_resolve_eq_ok_iff, mapM_eq_error_iff, exists_resolve_iff, resolve_eq_error_iff]
  constructor
  · rintro (⟨earlier, p, later, hsplit, hearlier, hp⟩ | ⟨children, ⟨hall, rfl⟩, hbuild⟩)
    · obtain ⟨hbeyond, rfl⟩ | ⟨s, hheld, htall, rfl⟩ := hp
      · exact .unresolvable hsplit hearlier hbeyond
      · exact .tallChild hsplit hearlier hheld htall
    · by_cases htall : config.maxDepth < ((Payload.references positions).segment
          inc.known.toList).height
      · obtain rfl : CodecError.nestingTooDeep config.maxDepth = e :=
          Except.error.inj ((if_pos htall).symm.trans hbuild)
        exact .tall hall htall
      · have hbuilt := (if_neg htall).symm.trans hbuild
        cases hbuilt
  · intro h
    cases h with
    | unresolvable hsplit hearlier hbeyond =>
      exact .inl ⟨_, _, _, hsplit, hearlier, .inl ⟨hbeyond, rfl⟩⟩
    | tallChild hsplit hearlier hheld htall =>
      exact .inl ⟨_, _, _, hsplit, hearlier, .inr ⟨_, hheld, htall, rfl⟩⟩
    | tall hall htall => exact .inr ⟨_, ⟨hall, rfl⟩, if_pos htall⟩

/-- A composition at fault is refused before its options are looked at. -/
theorem readRecord_of_fault {start : CompositionStart}
    (h : ReferenceFault config inc.known.toList start.positions e) (offset : Nat) (rest : Bytes) :
    inc.readRecord config ⟨offset, start.toBytes ++ rest⟩ = .error e := by
  have hbytes : start.toBytes ++ rest = start.flags :: UInt8.ofNat start.positions.length ::
      (BigEndian.u16 start.optionLength ++
        ((Payload.references start.positions).toBytes ++ rest)) := by
    simp [CompositionStart.toBytes]
  rw [readRecord, hbytes, RecordHead.read_append, ok_bind]
  simp only [start.toNat_count]
  rw [readSegment_append config inc _ _ (.references start.positions) _ start.kind_eq rfl
      start.count_le,
    denote_eq_error_iff.mpr h, error_bind, error_bind]

/-- Entries that are refused run out of bytes, or are the references of a composition at fault. -/
lemma readSegment_eq_error {head : RecordHead} {cursor : Cursor} (hsmall : head.count ≤ 255)
    (h : inc.readSegment config head cursor = .error e) :
    (∃ cause, e = .malformed cause) ∨
      ∃ (positions : List UInt16) (rest : Bytes), head.flags.kind = .composition ∧
        head.count = positions.length ∧
        cursor.rest = (Payload.references positions).toBytes ++ rest ∧
        ReferenceFault config inc.known.toList positions e := by
  have hrefused := h
  obtain hentries | ⟨⟨entries, next⟩, hentries, -⟩ := bind_eq_error.mp h
  · exact .inl (Cursor.malformed_of_take hentries)
  obtain ⟨hlength, hrest, -⟩ := Cursor.take_eq_ok_iff.mp hentries
  obtain ⟨payload, hkind, hcount, rfl⟩ := Payload.exists_toBytes hlength
  obtain ⟨offset, rest⟩ := cursor
  obtain rfl : rest = payload.toBytes ++ next.rest := hrest
  rw [readSegment_append config inc head offset payload _ hkind.symm hcount.symm
    (hcount ▸ hsmall)] at hrefused
  obtain hdenote | ⟨_, _, h⟩ := bind_eq_error.mp hrefused
  · cases payload with
    | interfaces hops => cases hdenote
    | references positions =>
      exact .inr ⟨positions, next.rest, hkind.symm, hcount.symm, rfl,
        denote_eq_error_iff.mp hdenote⟩
  · cases h

/-- A record that is refused is malformed, or a composition at fault. -/
theorem readRecord_eq_error {cursor : Cursor} (h : inc.readRecord config cursor = .error e) :
    (∃ cause, e = .malformed cause) ∨
      ∃ (start : CompositionStart) (rest : Bytes), cursor.rest = start.toBytes ++ rest ∧
        ReferenceFault config inc.known.toList start.positions e := by
  obtain hhead | ⟨⟨head, afterHead⟩, hhead, h⟩ := bind_eq_error.mp h
  · exact .inl (RecordHead.malformed_of_read hhead)
  obtain hsegment | ⟨_, _, h⟩ := bind_eq_error.mp h
  · obtain ⟨flags, count, options, hrest, rfl⟩ := RecordHead.read_eq_ok hhead
    obtain hmalformed | ⟨positions, rest, hkind, hcount, hentries, hfault⟩ :=
      readSegment_eq_error (Nat.le_of_lt_succ count.toNat_lt) hsegment
    · exact .inl hmalformed
    have hcountByte : count = UInt8.ofNat positions.length := by
      rw [← hcount, UInt8.ofNat_toNat]
    have hcount_le : positions.length ≤ 255 := by
      rw [← hcount]
      exact Nat.le_of_lt_succ count.toNat_lt
    refine .inr ⟨⟨flags, options, positions, hkind, hcount_le⟩, rest, ?_, hfault⟩
    rw [hrest, hentries, hcountByte]
    simp [CompositionStart.toBytes]
  · obtain hoptions | ⟨_, _, h⟩ := bind_eq_error.mp h
    · exact .inl (Cursor.malformed_of_take hoptions)
    · cases h

/-! ### All records -/

/-- Records that are read leave the others to be read after them. -/
lemma readRecords_add (more : Nat) (ws : List WireRecord) (inc : Incoming) (offset : Nat)
    (rest : Bytes) :
    readRecords config (ws.length + more) inc ⟨offset, ws.flatMap WireRecord.toBytes ++ rest⟩ =
      inc.denoteAll config ws >>= fun inc =>
        readRecords config more inc ⟨offset + (ws.flatMap WireRecord.toBytes).length, rest⟩ := by
  induction ws generalizing inc offset with
  | nil => simp [denoteAll]
  | cons w ws ih =>
    rw [List.length_cons, Nat.add_right_comm, readRecords, List.flatMap_cons, List.append_assoc,
      readRecord_append, denoteAll]
    cases inc.denote config w.payload with
    | error e => rfl
    | ok s =>
      simp only [ok_bind]
      rw [ih, List.length_append, Nat.add_assoc]

/-- Of records that are refused, some are read before the first that is malformed or at fault. -/
theorem readRecords_eq_error {count : Nat} {cursor : Cursor}
    (h : readRecords config count inc cursor = .error e) :
    (∃ cause, e = .malformed cause) ∨
      ∃ (before : List WireRecord) (start : CompositionStart) (rest : Bytes) (next : Incoming),
        before.length < count ∧
        cursor.rest = before.flatMap WireRecord.toBytes ++ (start.toBytes ++ rest) ∧
        inc.denoteAll config before = .ok next ∧
        ReferenceFault config next.known.toList start.positions e := by
  induction count generalizing inc cursor with
  | zero => cases h
  | succ count ih =>
    rw [readRecords] at h
    cases hread : inc.readRecord config cursor with
    | error fault =>
      rw [hread] at h
      cases h
      obtain hmalformed | ⟨start, rest, hrest, hfault⟩ := readRecord_eq_error hread
      · exact .inl hmalformed
      · exact .inr ⟨[], start, rest, inc, Nat.succ_pos _, hrest, rfl, hfault⟩
    | ok result =>
      rw [hread] at h
      obtain ⟨w, s, hrest, hs, hnext⟩ := readRecord_eq_ok hread
      obtain hmalformed | ⟨before, start, rest, next, hlt, hlater, hdenote, hfault⟩ := ih h
      · exact .inl hmalformed
      · refine .inr ⟨w :: before, start, rest, next, Nat.succ_lt_succ hlt, ?_, ?_, hfault⟩
        · rw [hrest, hlater, List.flatMap_cons, List.append_assoc]
        · rw [denoteAll, hs, ok_bind, ← hnext, hdenote]

end Incoming

/-! ### Messages -/

/-- The segments that are numbered when the given records have been read. -/
def knownAfter (cache : List Segment) (before : List WireRecord) : List Segment :=
  cache ++ (readings cache before).map Receipt.segment

@[simp] lemma length_knownAfter (cache : List Segment) (before : List WireRecord) :
    (knownAfter cache before).length = cache.length + before.length := by
  rw [knownAfter, List.length_append, List.length_map, length_readings]

/-- Records in order are read over the cache. -/
lemma denoteAll_ofCache {config : Config} {cache : List Segment} {ws : List WireRecord}
    (hback : RefersBack cache.length ws)
    (hheights : ∀ r ∈ readings cache ws, r.segment.height ≤ config.maxDepth) :
    (Incoming.ofCache cache).denoteAll config ws =
      .ok (.ofReceipts cache (readings cache ws)) := by
  rw [Incoming.ofCache_eq_ofReceipts, Incoming.denoteAll_eq_ok_iff]
  simpa using And.intro hback hheights

/-- The bytes are a header, some of the records that it counts, all in order, and then a composition
up to the end of its references. -/
structure Reaches (config : Config) (cache : List Segment) (bs : Bytes)
    (before : List WireRecord) (start : CompositionStart) : Prop where
  size_ge : 20 ≤ bs.length
  length_ge : 20 ≤ (Header.ofBytes bs).length.toNat
  length_le : (Header.ofBytes bs).length.toNat ≤ bs.length
  counted : cache.length + before.length < (Header.ofBytes bs).total.toNat
  bytes_eq : before.flatMap WireRecord.toBytes ++ start.toBytes <+:
    bs.drop (Header.ofBytes bs).length.toNat
  refersBack : RefersBack cache.length before
  height_le : ∀ r ∈ readings cache before, r.segment.height ≤ config.maxDepth

/-- Bytes up to the end of the references of the composition that is reached. -/
def referencesEnd (bs : Bytes) (before : List WireRecord) (start : CompositionStart) : Nat :=
  (Header.ofBytes bs).length.toNat + (before.map WireRecord.size).sum + start.size

namespace Reaches

variable {config : Config} {cache : List Segment} {bs others : Bytes} {before : List WireRecord}
  {start : CompositionStart} {e : CodecError}

/-- The records before are read, and then the composition is refused if it is at fault. -/
theorem decode_of_fault (h : Reaches config cache bs before start)
    (hfault : ReferenceFault config (knownAfter cache before) start.positions e) :
    decode config bs cache = .error e := by
  obtain ⟨rest, hbytes⟩ := h.bytes_eq
  have hcounted := h.counted
  have hparse : Header.parse bs = .ok (Header.ofBytes bs) :=
    Header.parse_eq_ok_iff.mpr ⟨⟨h.size_ge, h.length_ge, h.length_le⟩, rfl⟩
  have hlt : before.length < (Header.ofBytes bs).total.toNat - cache.length := by omega
  obtain ⟨more, hmore⟩ := Nat.exists_eq_add_of_lt hlt
  rw [decode_of_parse hparse, if_neg (by omega), hmore, Nat.add_assoc, ← hbytes,
    List.append_assoc, Incoming.readRecords_add, denoteAll_ofCache h.refersBack h.height_le,
    ok_bind, Incoming.readRecords, Incoming.readRecord_of_fault hfault]
  rfl

/-- A segment that is too tall is not from the message, so it is cached. -/
lemma held_tall_iff (h : Reaches config cache bs before start) {p : UInt16} {s : Segment} :
    (knownAfter cache before)[p.toNat]? = some s ∧ config.maxDepth < s.height ↔
      cache[p.toNat]? = some s ∧ config.maxDepth < s.height := by
  rw [and_congr_left_iff]
  intro htall
  by_cases hcached : p.toNat < cache.length
  · rw [knownAfter, List.getElem?_append_left hcached]
  · have huncached : cache[p.toNat]? = none := List.getElem?_eq_none (by omega)
    rw [knownAfter, List.getElem?_append_right (by omega), huncached]
    simp only [reduceCtorEq, iff_false]
    intro hheld
    obtain ⟨r, hr, rfl⟩ := List.mem_map.mp (List.mem_of_getElem? hheld)
    have hheight := h.height_le r hr
    omega

lemma take_referencesEnd (h : Reaches config cache bs before start) :
    bs.take (referencesEnd bs before start) = bs.take (Header.ofBytes bs).length.toNat ++
      (before.flatMap WireRecord.toBytes ++ start.toBytes) := by
  obtain ⟨rest, hbytes⟩ := h.bytes_eq
  have hlength : (before.flatMap WireRecord.toBytes ++ start.toBytes).length =
      (before.map WireRecord.size).sum + start.size := by
    rw [List.length_append, WireRecord.length_flatMap_toBytes, start.length_toBytes]
  rw [referencesEnd, Nat.add_assoc, List.take_add, ← hbytes, List.take_left' hlength]

/-- Other bytes that begin in the same way reach the same composition. -/
lemma of_prefix (h : Reaches config cache bs before start)
    (hothers : bs.take (referencesEnd bs before start) <+: others) :
    Reaches config cache others before start := by
  obtain ⟨more, rfl⟩ := hothers
  rw [h.take_referencesEnd, List.append_assoc]
  have hlength_ge := h.length_ge
  have hlength : (bs.take (Header.ofBytes bs).length.toNat).length =
      (Header.ofBytes bs).length.toNat := by
    rw [List.length_take, Nat.min_eq_left h.length_le]
  have hfixed : 20 ≤ (bs.take (Header.ofBytes bs).length.toNat).length := by
    rw [hlength]
    exact h.length_ge
  have hheader : ∀ rest, Header.ofBytes (bs.take (Header.ofBytes bs).length.toNat ++ rest) =
      Header.ofBytes bs := by
    intro rest
    rw [Header.ofBytes_append hfixed, ← Header.ofBytes_append hfixed
      (bs.drop (Header.ofBytes bs).length.toNat), List.take_append_drop]
  refine ⟨?_, ?_, ?_, ?_, ?_, h.refersBack, h.height_le⟩
  · rw [List.length_append]
    omega
  · rw [hheader]
    exact h.length_ge
  · rw [hheader, List.length_append]
    omega
  · rw [hheader]
    exact h.counted
  · rw [hheader, List.drop_left' hlength]
    exact List.prefix_append _ _

end Reaches

/-- A message that is refused is malformed, has a first composition at fault, or is followed by
bytes that are forbidden. -/
theorem decode_eq_error {config : Config} {cache : List Segment} {bs : Bytes} {e : CodecError}
    (h : decode config bs cache = .error e) :
    (∃ cause, e = .malformed cause) ∨
    (∃ (before : List WireRecord) (start : CompositionStart),
      Reaches config cache bs before start ∧
      ReferenceFault config (knownAfter cache before) start.positions e) ∨
    ∃ (records : List WireRecord) (trailing : Bytes), config.allowTrailing = false ∧
      trailing ≠ [] ∧ e = .trailingBytes trailing.length ∧
      Grammatical { config with allowTrailing := true } cache bs records trailing := by
  obtain hheader | ⟨header, hparse, -⟩ := bind_eq_error.mp h
  · exact .inl (Header.malformed_of_parse hheader)
  obtain ⟨⟨hsize, hge, hle⟩, rfl⟩ := Header.parse_eq_ok_iff.mp hparse
  rw [decode_of_parse hparse] at h
  by_cases htotal : (Header.ofBytes bs).total.toNat < cache.length
  · rw [if_pos htotal] at h
    cases h
    exact .inl ⟨_, rfl⟩
  rw [if_neg htotal] at h
  obtain hrecords | ⟨⟨inc, last⟩, hrecords, hconclude⟩ := bind_eq_error.mp h
  · obtain hmalformed | ⟨before, start, rest, next, hlt, hbytes, hdenote, hfault⟩ :=
      Incoming.readRecords_eq_error hrecords
    · exact .inl hmalformed
    rw [Incoming.ofCache_eq_ofReceipts] at hdenote
    obtain ⟨hback, hheights, rfl⟩ := Incoming.denoteAll_eq_ok_iff.mp hdenote
    refine .inr (.inl ⟨before, start, ⟨hsize, hge, hle, by omega, ⟨rest, ?_⟩, ?_, ?_⟩, ?_⟩)
    · rw [List.append_assoc]
      exact hbytes.symm
    · simpa using hback
    · simpa using hheights
    · simpa [Incoming.ofReceipts, knownAfter] using hfault
  · obtain ⟨records, hcount, hbytes, hdenote⟩ := Incoming.readRecords_eq_ok hrecords
    by_cases hexcess : config.allowTrailing = false ∧ 0 < last.rest.length
    · obtain rfl : CodecError.trailingBytes last.rest.length = e :=
        Except.error.inj ((if_pos hexcess).symm.trans hconclude)
      let layout : Layout { config with allowTrailing := true } cache bs :=
        ⟨.ofBytes bs, records, last.rest, hparse, by omega, hbytes, .inl rfl⟩
      have hread : (Incoming.ofCache cache).denoteAll { config with allowTrailing := true }
          layout.records = .ok inc := (Incoming.denoteAll_allowTrailing _ _ true _).trans hdenote
      exact .inr (.inr ⟨records, last.rest, hexcess.1, List.length_pos_iff.mp hexcess.2, rfl,
        (layout.grammatical hread).1⟩)
    · have hconcluded := (if_neg hexcess).symm.trans hconclude
      cases hconcluded

/-- What follows a message is refused if it is forbidden. -/
lemma Grammatical.decode_of_excess {config : Config} {cache : List Segment} {bs : Bytes}
    {records : List WireRecord} {trailing : Bytes}
    (h : Grammatical { config with allowTrailing := true } cache bs records trailing)
    (hforbidden : config.allowTrailing = false) (hpos : 0 < trailing.length) :
    decode config bs cache = .error (.trailingBytes trailing.length) := by
  have hparse : Header.parse bs = .ok (Header.ofBytes bs) :=
    Header.parse_eq_ok_iff.mpr ⟨⟨h.size_ge, h.length_ge, h.length_le⟩, rfl⟩
  have htotal := h.total_ge
  have hcount := h.count_eq
  have hheights : ∀ r ∈ readings cache records, r.segment.height ≤ config.maxDepth := h.height_le
  rw [decode_of_records hparse (by omega) h.bytes_eq, denoteAll_ofCache h.refersBack hheights,
    ok_bind]
  exact if_pos ⟨hforbidden, hpos⟩

/-- Errors that are not about the bytes are reported exactly if the first record at fault is a
composition with that fault. -/
theorem decode_eq_error_iff_fault {config : Config} {cache : List Segment} {bs : Bytes}
    {e : CodecError} (hmalformed : ∀ cause, e ≠ .malformed cause)
    (htrailing : ∀ count, e ≠ .trailingBytes count) :
    decode config bs cache = .error e ↔
      ∃ (before : List WireRecord) (start : CompositionStart),
        Reaches config cache bs before start ∧
        ReferenceFault config (knownAfter cache before) start.positions e := by
  constructor
  · intro h
    obtain ⟨cause, hcause⟩ | hfault | ⟨_, trailing, -, -, hcount, -⟩ := decode_eq_error h
    · exact absurd hcause (hmalformed cause)
    · exact hfault
    · exact absurd hcount (htrailing _)
  · rintro ⟨before, start, hreaches, hfault⟩
    exact hreaches.decode_of_fault hfault

lemma decode_eq_trailingBytes_iff {config : Config} {cache : List Segment} {bs : Bytes}
    {count : Nat} :
    decode config bs cache = .error (.trailingBytes count) ↔
      config.allowTrailing = false ∧ 0 < count ∧
      ∃ (records : List WireRecord) (trailing : Bytes), trailing.length = count ∧
        Grammatical { config with allowTrailing := true } cache bs records trailing := by
  constructor
  · intro h
    obtain ⟨_, hcause⟩ | ⟨_, _, _, hfault⟩ |
      ⟨records, trailing, hforbidden, hne, hcount, hrecords⟩ := decode_eq_error h
    · cases hcause
    · cases hfault
    · cases hcount
      exact ⟨hforbidden, List.length_pos_iff.mpr hne, records, trailing, rfl, hrecords⟩
  · rintro ⟨hforbidden, hpos, records, trailing, rfl, hrecords⟩
    exact hrecords.decode_of_excess hforbidden hpos

/-- An invalid reference is reported exactly if the first record at fault is a composition with a
reference that is not numbered yet, after references that resolve, and the error names both numbers.
The limit is reported exactly if the first record at fault is a composition that refers to a cached
segment beyond the limit, after references that resolve, or whose references all resolve and which
is itself beyond the limit. Trailing bytes are reported exactly if they are forbidden and nothing
else is wrong, and all of them are counted. There are no other errors, apart from malformed bytes,
and what stands after the references at fault does not change the error. -/
theorem decode_refusals (config : Config) (cache : List Segment) (bs : Bytes) :
    (∀ index resolvable, decode config bs cache = .error (.invalidReference index resolvable) ↔
      ∃ (before : List WireRecord) (start : CompositionStart),
        Reaches config cache bs before start ∧
        resolvable = cache.length + before.length ∧ resolvable ≤ index ∧
        ∃ earlier p later, start.positions = earlier ++ p :: later ∧ p.toNat = index ∧
          ∀ q ∈ earlier, Resolves config (knownAfter cache before) q) ∧
    (∀ depth, decode config bs cache = .error (.nestingTooDeep depth) ↔
      depth = config.maxDepth ∧
      ∃ (before : List WireRecord) (start : CompositionStart),
        Reaches config cache bs before start ∧
        ((∃ earlier p later s, start.positions = earlier ++ p :: later ∧
            (∀ q ∈ earlier, Resolves config (knownAfter cache before) q) ∧
            cache[p.toNat]? = some s ∧ depth < s.height) ∨
          ((∀ q ∈ start.positions, Resolves config (knownAfter cache before) q) ∧
            depth < ((Payload.references start.positions).segment
              (knownAfter cache before)).height))) ∧
    (∀ count, decode config bs cache = .error (.trailingBytes count) ↔
      config.allowTrailing = false ∧ 0 < count ∧
      ∃ (records : List WireRecord) (trailing : Bytes), trailing.length = count ∧
        Grammatical { config with allowTrailing := true } cache bs records trailing) ∧
    (∀ e, decode config bs cache = .error e →
      (∃ cause, e = .malformed cause) ∨ (∃ count, e = .trailingBytes count) ∨
      ∃ (before : List WireRecord) (start : CompositionStart),
        Reaches config cache bs before start ∧
        ReferenceFault config (knownAfter cache before) start.positions e ∧
        ∀ others : Bytes, bs.take (referencesEnd bs before start) <+: others →
          decode config others cache = .error e) ∧
    (∀ index, decode config bs cache ≠ .error (.indexOverflow index)) ∧
    (∀ length, decode config bs cache ≠ .error (.segmentTooLong length)) ∧
    ∀ fingerprint, decode config bs cache ≠ .error (.unindexedChild fingerprint) := by
  refine ⟨fun index resolvable => ?_, fun depth => ?_, fun count => decode_eq_trailingBytes_iff,
    fun e h => ?_, fun index h => ?_, fun length h => ?_, fun fingerprint h => ?_⟩
  · rw [decode_eq_error_iff_fault (by simp) (by simp)]
    simp only [ReferenceFault.invalidReference_iff, length_knownAfter]
  · rw [decode_eq_error_iff_fault (by simp) (by simp)]
    simp only [ReferenceFault.nestingTooDeep_iff]
    constructor
    · rintro ⟨before, start, hreaches, rfl, hfault⟩
      simp only [hreaches.held_tall_iff] at hfault
      exact ⟨rfl, before, start, hreaches, hfault⟩
    · rintro ⟨rfl, before, start, hreaches, hfault⟩
      simp only [← hreaches.held_tall_iff] at hfault
      exact ⟨before, start, hreaches, rfl, hfault⟩
  · obtain hmalformed | ⟨before, start, hreaches, hfault⟩ | ⟨_, trailing, -, -, htrailing, -⟩ :=
      decode_eq_error h
    · exact .inl hmalformed
    · refine .inr (.inr ⟨before, start, hreaches, hfault, fun others hothers => ?_⟩)
      exact (hreaches.of_prefix hothers).decode_of_fault hfault
    · exact .inr (.inl ⟨_, htrailing⟩)
  · obtain ⟨_, _, _, hfault⟩ := (decode_eq_error_iff_fault (by simp) (by simp)).mp h
    cases hfault
  · obtain ⟨_, _, _, hfault⟩ := (decode_eq_error_iff_fault (by simp) (by simp)).mp h
    cases hfault
  · obtain ⟨_, _, _, hfault⟩ := (decode_eq_error_iff_fault (by simp) (by simp)).mp h
    cases hfault

/-- The first reference at fault counts: a cached segment beyond the limit, or one that is not
numbered yet. -/
example : decode { maxDepth := 0 } ((Header.standard 2 ⟨1⟩ ⟨2⟩).toBytes ++ [3, 2, 0, 0, 0, 0, 0, 9])
    [(Segment.literal []).wrapper] = .error (.nestingTooDeep 0) ∧
    decode { maxDepth := 0 } ((Header.standard 2 ⟨1⟩ ⟨2⟩).toBytes ++ [3, 2, 0, 0, 0, 9, 0, 0])
      [(Segment.literal []).wrapper] = .error (.invalidReference 9 1) :=
  ⟨rfl, rfl⟩

end SegmentWire
