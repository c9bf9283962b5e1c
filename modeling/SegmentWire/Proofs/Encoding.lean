import SegmentWire.Message.Encoding
import SegmentWire.Proofs.Notices

/-!
# What is encoded

Encoding sends the notices of the listed segments, in order, provided that no two
of the segments involved collide. It keeps to fingerprints and a table where the
notices keep to structure and slots; `Outgoing.Tracks` ties the two together after
every step. If the notices break a limit, encoding fails with an error that names
a limit they break.
-/
namespace SegmentWire

/-- The segments that have to be told apart when a message is encoded. -/
def involved (cache segments : List Segment) : List Segment :=
  cache ++ (segments ++ segments.flatMap Segment.properSubsegments)

lemma cache_subset_involved (cache segments : List Segment) : cache ⊆ involved cache segments :=
  List.subset_append_left _ _

lemma listed_mem_involved (cache : List Segment) {segments : List Segment} :
    ∀ s ∈ segments, s ∈ involved cache segments ∧
      s.properSubsegments ⊆ involved cache segments := by
  intro s hs
  refine ⟨by simp [involved, hs], fun t ht => ?_⟩
  simp only [involved, List.mem_append, List.mem_flatMap]
  exact .inr (.inr ⟨s, hs, ht⟩)

/-- The limits on a message: positions have 16 bits, a record counts its entries in one byte, and
no segment is taller than the configuration allows. -/
structure Fits (config : Config) (cache : List Segment) (sent : List Notice) : Prop where
  total_lt : cache.length + sent.length < 65536
  length_le : ∀ n ∈ sent, n.segment.length ≤ 255
  height_le : ∀ n ∈ sent, n.segment.height ≤ config.maxDepth

instance (config : Config) (cache : List Segment) (sent : List Notice) :
    Decidable (Fits config cache sent) :=
  decidable_of_iff
    (cache.length + sent.length < 65536 ∧ (∀ n ∈ sent, n.segment.length ≤ 255) ∧
      ∀ n ∈ sent, n.segment.height ≤ config.maxDepth)
    ⟨fun h => ⟨h.1, h.2.1, h.2.2⟩, fun h => ⟨h.total_lt, h.length_le, h.height_le⟩⟩

/-- Notices fit exactly if each part of them fits after what the receiver has added before it. -/
lemma fits_append_iff {config : Config} {cache : List Segment} {sent later : List Notice} :
    Fits config cache (sent ++ later) ↔
      Fits config cache sent ∧ Fits config (cache ++ sent.map Notice.segment) later := by
  have htotal : (cache ++ sent.map Notice.segment).length = cache.length + sent.length := by simp
  constructor
  · rintro ⟨hlt, hlength, hheight⟩
    rw [List.length_append] at hlt
    obtain ⟨hlength, hlength'⟩ := List.forall_mem_append.mp hlength
    obtain ⟨hheight, hheight'⟩ := List.forall_mem_append.mp hheight
    exact ⟨⟨by omega, hlength, hheight⟩, ⟨by omega, hlength', hheight'⟩⟩
  · rintro ⟨⟨-, hlength, hheight⟩, ⟨hlt, hlength', hheight'⟩⟩
    refine ⟨?_, List.forall_mem_append.mpr ⟨hlength, hlength'⟩,
      List.forall_mem_append.mpr ⟨hheight, hheight'⟩⟩
    rw [List.length_append]
    omega

/-- The notices break the limit that the error names. -/
inductive Breaks (config : Config) (cache : List Segment) (sent : List Notice) : CodecError → Prop
  | tooDeep {n : Notice} : n ∈ sent → config.maxDepth < n.segment.height →
      Breaks config cache sent (.nestingTooDeep config.maxDepth)
  | tooLong {n : Notice} : n ∈ sent → 255 < n.segment.length →
      Breaks config cache sent (.segmentTooLong n.segment.length)
  | tooMany : 65536 ≤ cache.length + sent.length → Breaks config cache sent (.indexOverflow 65536)

namespace Breaks

variable {config : Config} {cache : List Segment} {sent : List Notice} {e : CodecError}

lemma not_fits (h : Breaks config cache sent e) : ¬ Fits config cache sent := by
  intro hfits
  cases h with
  | tooDeep hn hdeep => exact absurd (hfits.height_le _ hn) (by omega)
  | tooLong hn hlong => exact absurd (hfits.length_le _ hn) (by omega)
  | tooMany hmany => exact absurd hfits.total_lt (by omega)

lemma append (h : Breaks config cache sent e) (later : List Notice) :
    Breaks config cache (sent ++ later) e := by
  cases h with
  | tooDeep hn hdeep => exact .tooDeep (List.mem_append_left _ hn) hdeep
  | tooLong hn hlong => exact .tooLong (List.mem_append_left _ hn) hlong
  | tooMany hmany => exact .tooMany (by rw [List.length_append]; omega)

end Breaks

/-- The record of a segment whose children have the given positions. -/
lemma IndexTable.record_eq {table : IndexTable} {s : Segment} {position : Segment → UInt16}
    (accepted : Bool) (h : ∀ c ∈ s.children, table.get? c.fingerprint = some (position c)) :
    table.record accepted s =
      if 255 < s.length then .error (.segmentTooLong s.length)
      else .ok ⟨accepted, s.payload position⟩ := by
  cases s with
  | literal interfaces => rfl
  | composition segments =>
    have hreferences : segments.fingerprints.mapM table.reference =
        .ok (segments.toList.map position) := by
      rw [SegmentList.fingerprints_eq_map, mapM_eq_ok_iff, List.forall₂_map_left_iff,
        List.forall₂_map_right_iff, List.forall₂_same]
      intro c hc
      rw [reference, h c hc]
    rw [record]
    simp only [hreferences, ok_bind, Segment.payload]

namespace Outgoing

/-- The state of a message once the given notices are sent. All segments that it has met are told
apart by their fingerprints. -/
structure Tracks (config : Config) (pool cache : List Segment) (sent : List Notice)
    (out : Outgoing) : Prop where
  distinct : CollisionFree pool
  within : cache ++ contents sent ⊆ pool
  table : out.table.Tracks ((slots cache sent).map (Option.map Segment.fingerprint))
  records_eq : out.records.toList = recordsFrom (cache.map some) sent
  sent_eq : out.sent.toList = sent.map Notice.segment
  length_le : ∀ n ∈ sent, n.segment.length ≤ 255
  height_le : ∀ n ∈ sent, n.segment.height ≤ config.maxDepth

/-- A step that should send notices either does or fails because of a limit that they break. -/
def Yields (config : Config) (pool cache : List Segment) (sent : List Notice) :
    Except CodecError Outgoing → Prop
  | .ok out => out.Tracks config pool cache sent
  | .error e => Breaks config cache sent e

variable {config : Config} {pool cache : List Segment} {sent : List Notice} {out : Outgoing}

lemma Yields.bind {step : Except CodecError Outgoing} {next : Outgoing → Except CodecError Outgoing}
    {later : List Notice} (h : Yields config pool cache sent step)
    (hnext : ∀ out, out.Tracks config pool cache sent →
      Yields config pool cache (sent ++ later) (next out)) :
    Yields config pool cache (sent ++ later) (step >>= next) := by
  cases step with
  | ok out => exact hnext out h
  | error e => exact Breaks.append h later

namespace Tracks

/-- The fingerprint of a segment has the position of the segment. -/
lemma lastPosition?_fingerprint (h : out.Tracks config pool cache sent) {s : Segment}
    (hs : s ∈ pool) :
    lastPosition? s.fingerprint ((slots cache sent).map (Option.map Segment.fingerprint)) =
      lastPosition? s (slots cache sent) :=
  lastPosition?_map fun t ht => h.distinct t (h.within (mem_slots.mp ht)) s hs

lemma get?_eq (h : out.Tracks config pool cache sent) {s : Segment} (hs : s ∈ pool) :
    out.table.get? s.fingerprint = (lastPosition? s (slots cache sent)).map UInt16.ofNat := by
  rw [h.table.get?_eq, h.lastPosition?_fingerprint hs]

lemma contains_iff (h : out.Tracks config pool cache sent) {s : Segment} (hs : s ∈ pool) :
    out.table.contains s.fingerprint = true ↔ s ∈ cache ++ contents sent := by
  rw [h.table.contains_iff, ← lastPosition?_isSome_iff, h.lastPosition?_fingerprint hs,
    lastPosition?_isSome_iff, mem_slots]

lemma get?_of_mem (h : out.Tracks config pool cache sent) {s : Segment}
    (hs : s ∈ cache ++ contents sent) :
    out.table.get? s.fingerprint = some (position (slots cache sent) s) := by
  obtain ⟨i, hi⟩ := Option.isSome_iff_exists.mp (lastPosition?_isSome_iff.mpr (mem_slots.mpr hs))
  rw [h.get?_eq (h.within hs), position, hi]
  rfl

lemma get?_of_notMem (h : out.Tracks config pool cache sent) {s : Segment} (hpool : s ∈ pool)
    (hs : s ∉ cache ++ contents sent) : out.table.get? s.fingerprint = none := by
  rw [h.get?_eq hpool, lastPosition?_eq_none_iff.mpr (mt mem_slots.mp hs)]
  rfl

/-- One more notice is sent once its record is added and its slot is numbered. -/
lemma concat (h : out.Tracks config pool cache sent) {n : Notice} {table : IndexTable}
    (hpool : n.content?.toList ⊆ pool)
    (htable : table.Tracks ((slots cache sent).map (Option.map Segment.fingerprint) ++
      [n.content?.map Segment.fingerprint]))
    (hlength : n.segment.length ≤ 255) (hheight : n.segment.height ≤ config.maxDepth) :
    Tracks config pool cache (sent ++ [n])
      ⟨table, out.records.push (n.record (slots cache sent)), out.sent.push n.segment⟩ where
  distinct := h.distinct
  within := by
    rw [contents_concat, ← List.append_assoc]
    exact List.append_subset.mpr ⟨h.within, hpool⟩
  table := by simpa [slots_concat] using htable
  records_eq := by rw [Array.toList_push, h.records_eq, recordsFrom_concat]
  sent_eq := by rw [Array.toList_push, h.sent_eq, List.map_append, List.map_singleton]
  length_le := List.forall_mem_append.mpr ⟨h.length_le, by simpa using hlength⟩
  height_le := List.forall_mem_append.mpr ⟨h.height_le, by simpa using hheight⟩

end Tracks

/-- When all positions are handed out, one more notice is too many. -/
lemma tooMany_of_full (n : Notice)
    (hfull : ((slots cache sent).map (Option.map Segment.fingerprint)).length =
      IndexTable.capacity) :
    Breaks config cache (sent ++ [n]) (.indexOverflow IndexTable.capacity) := by
  refine .tooMany ?_
  simp only [List.length_map, length_slots, IndexTable.capacity] at hfull
  rw [List.length_append]
  omega

lemma emit_yields (h : out.Tracks config pool cache sent) {n : Notice} {s : Segment}
    (hcontent : n.content? = some s) (hpool : s ∈ pool) (hheight : s.height ≤ config.maxDepth)
    (hchildren : s.children ⊆ cache ++ contents sent) :
    Yields config pool cache (sent ++ [n]) (out.emit n.accepted s) := by
  obtain rfl := Notice.segment_of_content? hcontent
  obtain ⟨table, hassign, htable⟩ | ⟨hfull, hassign⟩ := h.table.assign_cases n.segment.fingerprint
  · -- Registering the segment itself moves none of its children.
    have hpositions : ∀ c ∈ n.segment.children,
        table.get? c.fingerprint = some (position (slots cache sent) c) := by
      intro c hc
      have hdiffer : ¬ n.segment.fingerprint = c.fingerprint := fun hsame =>
        Segment.ne_of_mem_children hc
          (h.distinct _ (h.within (hchildren hc)) _ hpool hsame.symm)
      have hold := h.get?_of_mem (hchildren hc)
      rw [h.table.get?_eq] at hold
      rw [htable.get?_eq, lastPosition?_concat, if_neg (by simpa using hdiffer), hold]
    have hemit : out.emit n.accepted n.segment =
        (table.record n.accepted n.segment >>= fun record =>
          .ok ⟨table, out.records.push record, out.sent.push n.segment⟩) := by
      rw [emit, hassign]
      rfl
    rw [hemit, IndexTable.record_eq _ hpositions]
    by_cases hlong : 255 < n.segment.length
    · rw [if_pos hlong, error_bind]
      exact .tooLong (List.mem_append_right _ (List.mem_singleton_self n)) hlong
    · rw [if_neg hlong, ok_bind]
      refine h.concat ?_ ?_ (by omega) hheight
      · simpa [hcontent] using hpool
      · simpa [hcontent] using htable
  · have hemit : out.emit n.accepted n.segment = .error (.indexOverflow IndexTable.capacity) := by
      rw [emit, hassign]
      rfl
    rw [hemit]
    exact tooMany_of_full n hfull

lemma emitWrapper_yields (h : out.Tracks config pool cache sent) (s : Segment)
    (hheight : s.height < config.maxDepth) :
    Yields config pool cache (sent ++ [.reminder s])
      (out.emitWrapper s (position (slots cache sent) s)) := by
  obtain ⟨table, hreserve, htable⟩ | ⟨hfull, hreserve⟩ := h.table.reserve_cases
  · have hemit : out.emitWrapper s (position (slots cache sent) s) =
        .ok ⟨table, out.records.push (.wrapper (position (slots cache sent) s)),
          out.sent.push s.wrapper⟩ := by
      rw [emitWrapper, hreserve]
      rfl
    rw [hemit]
    have hwrapper : s.wrapper.height ≤ config.maxDepth := by
      rw [Segment.height_wrapper]
      omega
    exact h.concat (n := .reminder s) (by simp [Notice.content?]) htable
      (by simp [Notice.segment]) hwrapper
  · have hemit : out.emitWrapper s (position (slots cache sent) s) =
        .error (.indexOverflow IndexTable.capacity) := by
      rw [emitWrapper, hreserve]
      rfl
    rw [hemit]
    exact tooMany_of_full _ hfull

mutual

theorem introduce_yields (s : Segment) {sent : List Notice} {out : Outgoing}
    (h : out.Tracks config pool cache sent) (hpool : s.properSubsegments ⊆ pool)
    (hheight : s.height ≤ config.maxDepth) :
    Yields config pool cache
      (sent ++ (s.unknown (cache ++ contents sent)).map .introduction) (out.introduce s) := by
  match s with
  | .literal interfaces =>
    rw [introduce, Segment.unknown, List.map_nil, List.append_nil]
    exact h
  | .composition segments => exact introduceEach_yields segments h hpool hheight

theorem introduceEach_yields (segments : SegmentList) {sent : List Notice} {out : Outgoing}
    (h : out.Tracks config pool cache sent) (hpool : segments.subsegments ⊆ pool)
    (hheight : segments.levels ≤ config.maxDepth) :
    Yields config pool cache
      (sent ++ (segments.unknown (cache ++ contents sent)).map .introduction)
      (out.introduceEach segments) := by
  match segments with
  | .nil =>
    rw [introduceEach, SegmentList.unknown, List.map_nil, List.append_nil]
    exact h
  | .cons head tail =>
    obtain ⟨hbelow, hhead, htail⟩ := SegmentList.subsegments_cons_subset.mp hpool
    have hlevels := SegmentList.levels_cons head tail
    by_cases hmem : head ∈ cache ++ contents sent
    · rw [tail.unknown_cons_of_mem hmem, introduceEach, if_pos ((h.contains_iff hhead).mpr hmem)]
      exact introduceEach_yields tail h htail (by omega)
    · let below := (head.unknown (cache ++ contents sent)).map Notice.introduction
      let rest := tail.unknown (cache ++ contents sent ++
        (head.unknown (cache ++ contents sent) ++ [head]))
      have hnotices : sent ++ ((SegmentList.cons head tail).unknown (cache ++ contents sent)).map
            .introduction = sent ++ below ++ ([.introduction head] ++ rest.map .introduction) := by
        simp [tail.unknown_cons_of_notMem hmem, below, rest]
      have hknown : cache ++ contents (sent ++ below ++ [.introduction head]) =
          cache ++ contents sent ++ (head.unknown (cache ++ contents sent) ++ [head]) := by
        rw [contents_concat]
        simp [Notice.content?, below]
      rw [hnotices, introduceEach, if_neg (mt (h.contains_iff hhead).mp hmem)]
      refine Yields.bind (introduce_yields head h hbelow (by omega)) fun out hout => ?_
      have hchildren : head.children ⊆ cache ++ contents (sent ++ below) := by
        simpa [below] using head.children_subset_known (cache ++ contents sent)
      have hemit : Yields config pool cache (sent ++ below ++ [.introduction head])
          (out.emit false head) :=
        emit_yields hout (n := .introduction head) rfl hhead (by omega) hchildren
      rw [← List.append_assoc]
      refine Yields.bind hemit fun out hout => ?_
      have hlast := introduceEach_yields tail hout htail (by omega)
      rwa [hknown] at hlast

end

lemma announce_yields (s : Segment) (h : out.Tracks config pool cache sent)
    (hs : s ∈ pool) (hpool : s.properSubsegments ⊆ pool) :
    Yields config pool cache (sent ++ s.notices (cache ++ contents sent))
      (out.announce config s) := by
  by_cases hmem : s ∈ cache ++ contents sent
  · rw [s.notices_of_mem hmem, announce, h.get?_of_mem hmem]
    by_cases hheight : s.height < config.maxDepth
    · rw [if_neg (by omega)]
      simp only
      rw [if_neg (by omega)]
      exact emitWrapper_yields h s hheight
    · have hdeep : config.maxDepth < (Notice.reminder s).segment.height := by
        rw [Notice.segment, Segment.height_wrapper]
        omega
      have herror : Breaks config cache (sent ++ [.reminder s]) (.nestingTooDeep config.maxDepth) :=
        .tooDeep (List.mem_append_right _ (List.mem_singleton_self _)) hdeep
      by_cases habove : config.maxDepth < s.height
      · rw [if_pos habove]
        exact herror
      · rw [if_neg habove]
        simp only
        rw [if_pos (by omega)]
        exact herror
  · rw [s.notices_of_notMem hmem, announce, h.get?_of_notMem hs hmem]
    by_cases hheight : config.maxDepth < s.height
    · rw [if_pos hheight]
      exact .tooDeep (n := .announcement s) (by simp) hheight
    · rw [if_neg hheight, ← List.append_assoc]
      refine Yields.bind (introduce_yields s h hpool (by omega)) fun out hout => ?_
      have hchildren : s.children ⊆
          cache ++ contents (sent ++ (s.unknown (cache ++ contents sent)).map .introduction) := by
        simpa using s.children_subset_known (cache ++ contents sent)
      exact emit_yields hout (n := .announcement s) rfl hs (by omega) hchildren

lemma announceAll_yields (segments : List Segment) (h : out.Tracks config pool cache sent)
    (hpool : ∀ s ∈ segments, s ∈ pool ∧ s.properSubsegments ⊆ pool) :
    Yields config pool cache (sent ++ notices (cache ++ contents sent) segments)
      (out.announceAll config segments) := by
  induction segments generalizing sent out with
  | nil =>
    rw [notices_nil, List.append_nil]
    exact h
  | cons s segments ih =>
    obtain ⟨hs, hbelow⟩ := hpool s List.mem_cons_self
    have hfirst := announce_yields s h hs hbelow
    rw [notices_cons, ← List.append_assoc, announceAll]
    cases hstep : out.announce config s with
    | ok out =>
      rw [hstep] at hfirst
      have hrest := ih hfirst fun t ht => hpool t (List.mem_cons_of_mem _ ht)
      rwa [contents_append, ← List.append_assoc] at hrest
    | error e =>
      rw [hstep] at hfirst
      exact Breaks.append hfirst _

lemma start_yields {pool : List Segment} (distinct : CollisionFree pool) (hcache : cache ⊆ pool) :
    Yields config pool cache [] (start cache) := by
  obtain ⟨table, htable, htracks⟩ | ⟨hover, htable⟩ := IndexTable.Tracks.ofCache_cases cache
  · have hstart : start cache = .ok ⟨table, #[], #[]⟩ := by
      rw [start, htable]
      rfl
    rw [hstart]
    exact ⟨distinct, by simpa using hcache, by simpa [slots, Function.comp_def] using htracks,
      rfl, rfl, by simp, by simp⟩
  · have hstart : start cache = .error (.indexOverflow IndexTable.capacity) := by
      rw [start, htable]
      rfl
    rw [hstart]
    refine .tooMany ?_
    simp only [IndexTable.capacity] at hover
    rw [List.length_nil]
    omega

end Outgoing

/-- The message that consists of the given notices. -/
def EncodedMessage.ofNotices (cache : List Segment) (sent : List Notice)
    (source destination : IsdAsn) : EncodedMessage where
  bytes :=
    let header := Header.standard (UInt16.ofNat (cache.length + sent.length)) source destination
    header.toBytes ++ (recordsFrom (cache.map some) sent).flatMap Record.toBytes
  sent := sent.map Notice.segment

/-- Encoding gives the message of the notices if they fit, and else names a limit they break. -/
theorem encode_cases (config : Config) {cache segments : List Segment}
    (distinct : CollisionFree (involved cache segments)) (source destination : IsdAsn) :
    (Fits config cache (notices cache segments) ∧
      encode config cache segments source destination =
        .ok (.ofNotices cache (notices cache segments) source destination)) ∨
    ∃ e, Breaks config cache (notices cache segments) e ∧
      encode config cache segments source destination = .error e := by
  have hmessage : Outgoing.Yields config (involved cache segments) cache (notices cache segments)
      (Outgoing.start cache >>= fun out => out.announceAll config segments) := by
    have hstart : Outgoing.Yields config (involved cache segments) cache []
        (Outgoing.start cache) :=
      Outgoing.start_yields distinct (cache_subset_involved cache segments)
    refine hstart.bind fun out hout => ?_
    simpa using Outgoing.announceAll_yields segments hout (listed_mem_involved cache)
  have hencode : encode config cache segments source destination =
      ((Outgoing.start cache >>= fun out => out.announceAll config segments) >>= fun out =>
        out.finish source destination) := by
    unfold encode
    cases Outgoing.start cache <;> rfl
  rw [hencode]
  cases hout : Outgoing.start cache >>= fun out => out.announceAll config segments with
  | error e =>
    rw [hout] at hmessage
    exact .inr ⟨e, hmessage, rfl⟩
  | ok out =>
    rw [hout] at hmessage
    have hnext : out.table.next = cache.length + (notices cache segments).length := by
      simpa using hmessage.table.next_eq
    have hle : out.table.next ≤ 65536 := by
      rw [hmessage.table.next_eq]
      exact hmessage.table.length_le
    rw [ok_bind, Outgoing.finish]
    by_cases hlt : out.table.next < 65536
    · refine .inl ⟨⟨by omega, hmessage.length_le, hmessage.height_le⟩, ?_⟩
      rw [if_pos hlt, hmessage.records_eq, hmessage.sent_eq, hnext]
      rfl
    · refine .inr ⟨_, .tooMany (by omega), ?_⟩
      have hfull : out.table.next = 65536 := by omega
      rw [if_neg hlt, hfull]

theorem encode_eq_ok_iff (config : Config) {cache segments : List Segment}
    (distinct : CollisionFree (involved cache segments)) (source destination : IsdAsn)
    (message : EncodedMessage) :
    encode config cache segments source destination = .ok message ↔
      Fits config cache (notices cache segments) ∧
        message = .ofNotices cache (notices cache segments) source destination := by
  obtain ⟨hfits, hencode⟩ | ⟨e, hbreaks, hencode⟩ := encode_cases config distinct source destination
  · rw [hencode, Except.ok.injEq]
    exact ⟨fun h => ⟨hfits, h.symm⟩, fun h => h.2.symm⟩
  · rw [hencode]
    constructor
    · intro h
      cases h
    · intro h
      exact absurd h.1 hbreaks.not_fits

end SegmentWire
