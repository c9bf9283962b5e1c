import SegmentWire.Proofs.Encoding
import SegmentWire.Proofs.Headers
import SegmentWire.Proofs.Receiving
import SegmentWire.Sample

/-!
# The round trip

The receiver numbers segments where the sender numbers slots. A reference names the
last slot of a child, and at that position the receiver holds the child. By
induction on the notices, the receiver ends with the segments that were sent.
-/
namespace SegmentWire

lemma Fits.withTrailing {config : Config} {cache : List Segment} {sent : List Notice}
    (h : Fits config cache sent) (allowed : Bool) :
    Fits { config with allowTrailing := allowed } cache sent :=
  ⟨h.total_lt, h.length_le, h.height_le⟩

lemma getElem?_of_slots {cache : List Segment} {sent : List Notice} {s : Segment} {i : Nat}
    (h : (slots cache sent)[i]? = some (some s)) :
    (cache ++ sent.map Notice.segment)[i]? = some s := by
  unfold slots at h
  by_cases hi : i < cache.length
  · rw [List.getElem?_append_left (by simpa using hi), List.getElem?_map] at h
    rw [List.getElem?_append_left hi]
    simpa using h
  · rw [List.getElem?_append_right (by simpa using hi), List.getElem?_map, List.length_map] at h
    rw [List.getElem?_append_right (by omega), List.getElem?_map]
    obtain ⟨n, hn, hcontent⟩ := Option.map_eq_some_iff.mp h
    rw [hn, Option.map_some, Notice.segment_of_content? hcontent]

/-- A reference names the last slot of the segment. -/
lemma position_spec {slots : List (Option Segment)} {s : Segment} (hlength : slots.length ≤ 65536)
    (h : some s ∈ slots) : lastPosition? s slots = some (position slots s).toNat := by
  obtain ⟨i, hi⟩ := Option.isSome_iff_exists.mp (lastPosition?_isSome_iff.mpr h)
  have hlt := lastPosition?_lt hi
  rw [position, hi, Option.getD_some, UInt16.toNat_ofNat_of_lt' (by simp only [UInt16.size]; omega)]

namespace Incoming

/-- A receiver that has read the records of the given notices. -/
def ofNotices (cache : List Segment) (sent : List Notice) : Incoming :=
  ofReceipts cache (sent.map Notice.receipt)

lemma known_ofNotices (cache : List Segment) (sent : List Notice) :
    (ofNotices cache sent).known = (cache ++ sent.map Notice.segment).toArray := by
  simp [ofNotices, ofReceipts, Function.comp_def, Notice.receipt]

lemma add_ofNotices (cache : List Segment) (sent : List Notice) (n : Notice)
    (flags : RecordFlags) (hflags : flags.accepted = n.accepted) :
    (ofNotices cache sent).add flags n.segment = ofNotices cache (sent ++ [n]) := by
  rw [ofNotices, add_ofReceipts, hflags, ofNotices, List.map_append]
  rfl

variable {config : Config} {cache : List Segment} {sent : List Notice}

/-- Entries that resolve to the children of a segment stand for the segment. -/
lemma denote_of_resolve {inc : Incoming} {position : Segment → UInt16} {s : Segment}
    (hresolve : ∀ c ∈ s.children, inc.resolve config (position c) = .ok c)
    (hheight : s.height ≤ config.maxDepth) :
    inc.denote config (s.payload position) = .ok s := by
  cases s with
  | literal interfaces => rfl
  | composition segments =>
    have hchildren : (segments.toList.map position).mapM (inc.resolve config) =
        .ok segments.toList := by
      rw [mapM_eq_ok_iff, List.forall₂_map_left_iff, List.forall₂_same]
      exact hresolve
    have hbuild : Segment.ofSegments segments.toList = .composition segments := by
      rw [Segment.ofSegments, SegmentList.ofList_toList]
    rw [Segment.payload, denote, hchildren, ok_bind, hbuild]
    exact if_neg (Nat.not_lt.mpr hheight)

lemma resolve_position (htotal : cache.length + sent.length ≤ 65536) {s : Segment}
    (hknown : s ∈ cache ++ contents sent) (hheight : s.height ≤ config.maxDepth) :
    (ofNotices cache sent).resolve config (position (slots cache sent) s) = .ok s := by
  have hposition := position_spec (by simpa using htotal) (mem_slots.mpr hknown)
  have hslot := (lastPosition?_eq_some_iff.mp hposition).1
  refine resolve_eq_ok_iff.mpr ⟨?_, hheight⟩
  rw [known_ofNotices]
  exact getElem?_of_slots hslot

/-- The entries of a notice's record stand for its segment. -/
lemma denote_payload (htotal : cache.length + sent.length ≤ 65536) {s : Segment}
    (hchildren : s.children ⊆ cache ++ contents sent) (hheight : s.height ≤ config.maxDepth) :
    (ofNotices cache sent).denote config (s.payload (position (slots cache sent))) = .ok s := by
  refine denote_of_resolve (fun c hc => ?_) hheight
  have hlt := Segment.height_child_lt hc
  exact resolve_position htotal (hchildren hc) (by omega)

/-- Notices that are in order and fit can be read from their records. -/
theorem denoteAll_records (hcoherent : Coherent cache sent) (hfits : Fits config cache sent) :
    ∃ ws : List WireRecord,
      ws.map WireRecord.toBytes = (recordsFrom (cache.map some) sent).map Record.toBytes ∧
      ws.map WireRecord.accepted = sent.map Notice.accepted ∧
      (ofCache cache).denoteAll config ws = .ok (ofNotices cache sent) := by
  induction hcoherent with
  | nil => exact ⟨[], rfl, rfl, by simp [denoteAll, ofCache, ofNotices, ofReceipts, marked]⟩
  | @concat sent n _ hchildren _ ih =>
    obtain ⟨hsent, -⟩ := fits_append_iff.mp hfits
    obtain ⟨ws, hbytes, hflags, hdenote⟩ := ih hsent
    have htotal := hsent.total_lt
    have hn : n ∈ sent ++ [n] := by simp
    have hsegment := denote_payload (Nat.le_of_lt htotal) hchildren (hfits.height_le n hn)
    have hcount : (n.record (slots cache sent)).payload.count ≤ 255 := by
      rw [Notice.record, Segment.count_payload]
      exact hfits.length_le n hn
    have haccepted : (WireRecord.ofRecord (n.record (slots cache sent)) hcount).accepted =
        n.accepted := WireRecord.accepted_ofRecord _ hcount
    refine ⟨ws ++ [.ofRecord (n.record (slots cache sent)) hcount], ?_, ?_, ?_⟩
    · rw [List.map_append, hbytes, recordsFrom_concat, List.map_append, List.map_singleton,
        WireRecord.toBytes_ofRecord, List.map_singleton]
    · rw [List.map_append, hflags, List.map_append, List.map_singleton, haccepted,
        List.map_singleton]
    · rw [denoteAll_concat, hdenote, ok_bind, ← add_ofNotices cache sent n _ haccepted]
      exact bind_eq_ok.mpr ⟨n.segment, hsegment, rfl⟩

end Incoming

/-- What the receiver makes of notices. -/
def DecodedMessage.ofNotices (sent : List Notice) (source destination : IsdAsn) :
    DecodedMessage where
  newSegments := sent.map Notice.segment
  acceptedSegments := SegmentWire.acceptedSegments sent
  source
  destination

/-- Notices that are in order and fit make up a message that can be read. -/
theorem exists_layout_ofNotices {config : Config} {cache : List Segment} {sent : List Notice}
    (hcoherent : Coherent cache sent) (hfits : Fits config cache sent)
    (source destination : IsdAsn) :
    ∃ layout : Layout config cache (EncodedMessage.ofNotices cache sent source destination).bytes,
      layout.header.source = source ∧ layout.header.destination = destination ∧
      layout.trailing = [] ∧
      layout.records.map WireRecord.accepted = sent.map Notice.accepted ∧
      (Incoming.ofCache cache).denoteAll config layout.records = .ok (.ofNotices cache sent) := by
  obtain ⟨ws, hbytes, hflags, hdenote⟩ := Incoming.denoteAll_records hcoherent hfits
  have hcount : ws.length = sent.length := by
    have hlength := congrArg List.length hbytes
    simpa using hlength
  have hflat : (recordsFrom (cache.map some) sent).flatMap Record.toBytes =
      ws.flatMap WireRecord.toBytes := by
    rw [List.flatMap_def, ← hbytes, ← List.flatMap_def]
  rw [EncodedMessage.ofNotices, hflat]
  exact ⟨.standard ws (by rw [hcount]) hfits.total_lt source destination, rfl, rfl, rfl, hflags,
    hdenote⟩

/-- A message of notices that are in order and fit is decoded to what they say. -/
theorem decode_ofNotices {config : Config} {cache : List Segment} {sent : List Notice}
    (hcoherent : Coherent cache sent) (hfits : Fits config cache sent)
    (source destination : IsdAsn) :
    decode config (EncodedMessage.ofNotices cache sent source destination).bytes cache =
      .ok (.ofNotices sent source destination) := by
  obtain ⟨layout, hsource, hdestination, -, -, hdenote⟩ :=
    exists_layout_ofNotices hcoherent hfits source destination
  rw [decode_of_layout layout, hdenote, ok_bind, DecodedMessage.ofIncoming,
    Incoming.known_ofNotices, hsource, hdestination]
  simp [DecodedMessage.ofNotices, Incoming.ofNotices, Incoming.ofReceipts, acceptedSegments]

/-- What is encoded decodes to what was sent: each listed segment is accepted as itself if it is
unknown at its turn, and as its wrapper if it is cached, was listed or introduced before. -/
theorem decode_encode {config : Config} {cache segments : List Segment}
    {source destination : IsdAsn} {message : EncodedMessage}
    (distinct : CollisionFree (involved cache segments))
    (h : encode config cache segments source destination = .ok message) (allowed : Bool) :
    ∃ decoded, decode { config with allowTrailing := allowed } message.bytes cache = .ok decoded ∧
      decoded.newSegments = message.sent ∧ decoded.source = source ∧
      decoded.destination = destination ∧ decoded.acceptedSegments.length = segments.length ∧
      ∀ i s, segments[i]? = some s →
        let known := s ∈ cache ∨ s ∈ segments.take i ∨ Introduced cache (segments.take i) s
        (known → decoded.acceptedSegments[i]? = some s.wrapper) ∧
        (¬ known → decoded.acceptedSegments[i]? = some s) := by
  obtain ⟨hfits, rfl⟩ := (encode_eq_ok_iff config distinct source destination message).mp h
  refine ⟨_, decode_ofNotices (notices_coherent cache segments) (hfits.withTrailing allowed) _ _,
    rfl, rfl, rfl, length_acceptedSegments_notices cache segments, ?_⟩
  intro i s hs
  have haccepted := acceptedSegments_notices_getElem? cache segments i
  rw [hs, Option.map_some] at haccepted
  constructor
  · intro hknown
    rwa [if_pos (mem_known_notices_iff.mpr hknown)] at haccepted
  · intro hnew
    rwa [if_neg fun hknown => hnew (mem_known_notices_iff.mp hknown)] at haccepted

/-- A tree is announced and then one of its leaves, which was introduced for the tree. -/
theorem decode_encode_leaf :
    ∃ message decoded,
      encode {} [] [Sample.tree 1 2, Sample.literal 8 4] ⟨1⟩ ⟨2⟩ = .ok message ∧
      decode { allowTrailing := false } message.bytes [] = .ok decoded ∧
      decoded.acceptedSegments[0]? = some (Sample.tree 1 2) ∧
      decoded.acceptedSegments[1]? = some (Sample.literal 8 4).wrapper := by
  have distinct : CollisionFree (involved [] [Sample.tree 1 2, Sample.literal 8 4]) := by
    decide +kernel
  have hfits : Fits {} [] (notices [] [Sample.tree 1 2, Sample.literal 8 4]) := by
    decide +kernel
  have hencode := (encode_eq_ok_iff {} distinct ⟨1⟩ ⟨2⟩ _).mpr ⟨hfits, rfl⟩
  obtain ⟨decoded, hdecode, -, -, -, -, haccepted⟩ := decode_encode distinct hencode false
  have hleaf : Introduced [] [Sample.tree 1 2] (Sample.literal 8 4) :=
    ⟨_, List.mem_singleton_self _, by simp, .child (by decide +kernel) (by simp)⟩
  refine ⟨_, decoded, hencode, hdecode, (haccepted 0 _ rfl).2 ?_, (haccepted 1 _ rfl).1 ?_⟩
  · simp [Introduced]
  · exact .inr (.inr hleaf)

end SegmentWire
