import SegmentWire.Message.Inspection
import SegmentWire.Proofs.Grammar

/-!
# Inspections agree with decoding

An inspection reads the accepted flags in a pass of its own over the bytes. The pass
steps from record to record by their lengths alone, and finds the same records as the
receiver. So each entry has the flag of the record whose segment it describes,
whatever padding, options, unknown flag bits and trailing bytes a message has.
-/
namespace SegmentWire

/-- The segments at the entries that are marked as accepted. -/
def acceptedAmong (entries : List InspectedRecord) (segments : List Segment) : List Segment :=
  ((entries.zip segments).filter fun entry => entry.1.accepted).map Prod.snd

/-- The inspection tells the header of a message and lists its records, as they are decoded. -/
structure Inspection.Describes (inspection : Inspection) (bs : Bytes) (cache : List Segment)
    (message : DecodedMessage) : Prop where
  size_eq : inspection.size = bs.length
  parse_eq : Header.parse bs = .ok inspection.header
  source_eq : inspection.header.source = message.source
  destination_eq : inspection.header.destination = message.destination
  cached_eq : inspection.cached = cache.length
  total_eq : inspection.cached + inspection.records.length = inspection.header.total.toNat
  length_eq : inspection.records.length = message.newSegments.length
  summary_eq : ∀ i s, message.newSegments[i]? = some s →
    inspection.records[i]?.map InspectedRecord.summary =
      some ⟨cache.length + i, s.kind, s.length, s.fingerprint⟩
  accepted_eq : acceptedAmong inspection.records message.newSegments = message.acceptedSegments

lemma Summary.getElem?_ofList (first : Nat) (segments : List Segment) (i : Nat) :
    (ofList first segments)[i]? = segments[i]?.map (ofSegment (first + i)) := by
  simp [ofList, Function.comp_def]

@[simp] lemma Summary.length_ofList (first : Nat) (segments : List Segment) :
    (ofList first segments).length = segments.length := by
  simp [ofList]

namespace Inspection.Describes

variable {inspection : Inspection} {bs : Bytes} {cache : List Segment} {message : DecodedMessage}

/-- The entries summarise the records, numbered on from the cache. -/
lemma summaries_eq (h : inspection.Describes bs cache message) :
    inspection.records.map InspectedRecord.summary =
      Summary.ofList cache.length message.newSegments := by
  apply List.ext_getElem?
  intro i
  rw [List.getElem?_map, Summary.getElem?_ofList]
  cases hs : message.newSegments[i]? with
  | some s => exact h.summary_eq i s hs
  | none =>
    have hlength := h.length_eq
    rw [List.getElem?_eq_none_iff] at hs
    rw [List.getElem?_eq_none (by omega)]
    rfl

/-- As many entries are marked as accepted as segments are. -/
lemma length_accepted (h : inspection.Describes bs cache message) :
    (inspection.records.filter InspectedRecord.accepted).length =
      message.acceptedSegments.length := by
  have hentries : (inspection.records.zip message.newSegments).map Prod.fst =
      inspection.records := List.map_fst_zip (Nat.le_of_eq h.length_eq)
  rw [← h.accepted_eq, acceptedAmong, List.length_map]
  conv_lhs => rw [← hentries]
  rw [List.filter_map, List.length_map]
  rfl

end Inspection.Describes

namespace Inspection

/-- The pass over the bytes finds the flags of the records. -/
theorem acceptedFlags_append (ws : List WireRecord) (rest : Bytes) :
    acceptedFlags ws.length (ws.flatMap WireRecord.toBytes ++ rest) =
      ws.map WireRecord.accepted := by
  induction ws with
  | nil => rfl
  | cons w ws ih =>
    obtain ⟨length, high, low, hbytes, -, hentries, hoptions⟩ :=
      w.toBytes_append_eq (ws.flatMap WireRecord.toBytes ++ rest)
    rw [List.flatMap_cons, List.append_assoc, hbytes, List.length_cons, acceptedFlags]
    simp only [hentries, hoptions]
    rw [← List.append_assoc, List.drop_left' List.length_append, ih]
    rfl

/-- The entries for records that have been received. -/
def entries (first : Nat) (received : List Receipt) : List InspectedRecord :=
  (Summary.ofList first (received.map Receipt.segment)).zipWith InspectedRecord.mk
    (received.map Receipt.accepted)

section Entries

variable (first : Nat) (received : List Receipt)

lemma entries_cons (r : Receipt) :
    entries first (r :: received) =
      ⟨.ofSegment first r.segment, r.accepted⟩ :: entries (first + 1) received := rfl

@[simp] lemma length_entries : (entries first received).length = received.length := by
  simp [entries]

lemma map_summary_entries :
    (entries first received).map InspectedRecord.summary =
      Summary.ofList first (received.map Receipt.segment) := by
  induction received generalizing first with
  | nil => rfl
  | cons r received ih =>
    rw [entries_cons, List.map_cons, ih]
    rfl

lemma acceptedAmong_entries :
    acceptedAmong (entries first received) (received.map Receipt.segment) =
      marked true received := by
  induction received generalizing first with
  | nil => rfl
  | cons r received ih =>
    have hrest := ih (first + 1)
    unfold acceptedAmong at hrest ⊢
    rw [entries_cons, List.map_cons, List.zip_cons_cons, List.filter_cons, marked_cons, ← hrest]
    cases r.accepted <;> rfl

end Entries

/-- A message that decodes is inspected as what its records say. -/
lemma ofMessage_of_layout {bs : Bytes} {cache : List Segment} (layout : Layout {} cache bs)
    (hdecode : decode {} bs cache =
      .ok (.ofReceipts layout.header (readings cache layout.records))) :
    ofMessage bs cache = .ok {
      size := bs.length
      header := layout.header
      cached := cache.length
      records := entries cache.length (readings cache layout.records) } := by
  have hcount : ((readings cache layout.records).map Receipt.segment).length =
      layout.records.length := by
    simp
  rw [ofMessage, hdecode, ok_bind, layout.parse_eq, ok_bind, layout.bytes_eq,
    DecodedMessage.ofReceipts, hcount, acceptedFlags_append, ← map_accepted_readings cache]
  rfl

/-- A message that decodes is described as it decodes. -/
theorem describes_of_decode {bs : Bytes} {cache : List Segment} {message : DecodedMessage}
    (h : decode {} bs cache = .ok message) :
    ∃ inspection, ofMessage bs cache = .ok inspection ∧
      inspection.Describes bs cache message := by
  have hdecode := h
  obtain ⟨layout, inc, hdenote, rfl⟩ := decode_eq_ok_iff.mp h
  obtain ⟨-, rfl⟩ := layout.grammatical hdenote
  rw [DecodedMessage.ofIncoming_ofReceipts] at hdecode ⊢
  refine ⟨_, ofMessage_of_layout layout hdecode, ?_⟩
  constructor
  case size_eq => rfl
  case parse_eq => exact layout.parse_eq
  case source_eq => rfl
  case destination_eq => rfl
  case cached_eq => rfl
  case total_eq => simp [layout.total_eq]
  case length_eq => simp [DecodedMessage.ofReceipts]
  case summary_eq =>
    intro i s hs
    rw [← List.getElem?_map, map_summary_entries, Summary.getElem?_ofList]
    rw [DecodedMessage.ofReceipts] at hs
    rw [hs]
    rfl
  case accepted_eq => exact acceptedAmong_entries _ _

end Inspection

/-- Inspecting a message fails with the error of decoding it. If the message decodes, there is one
entry for each record, which tells its position and what is decoded of it, and the entries that are
marked as accepted are those of the accepted segments. -/
theorem inspection_agrees (bs : Bytes) (cache : List Segment) :
    (∀ e, Inspection.ofMessage bs cache = .error e ↔ decode {} bs cache = .error e) ∧
    ∀ message, decode {} bs cache = .ok message →
      ∃ inspection, Inspection.ofMessage bs cache = .ok inspection ∧
        inspection.Describes bs cache message := by
  refine ⟨fun e => ?_, fun message h => Inspection.describes_of_decode h⟩
  cases h : decode {} bs cache with
  | error fault => rw [Inspection.ofMessage, h, error_bind, Except.error.injEq, Except.error.injEq]
  | ok message =>
    obtain ⟨inspection, hinspection, -⟩ := Inspection.describes_of_decode h
    rw [hinspection]
    simp

/-- An untidy message is inspected in spite of all that is passed over. -/
theorem inspection_agrees_untidy :
    ∃ inspection, Inspection.ofMessage Sample.untidyMessage [] = .ok inspection ∧
      inspection.records.length = 2 ∧
      acceptedAmong inspection.records [Sample.literal 7 1, (Sample.literal 7 1).wrapper] =
        [(Sample.literal 7 1).wrapper] := by
  obtain ⟨inspection, hinspection, hdescribes⟩ :=
    (inspection_agrees Sample.untidyMessage []).2 _ Sample.decode_untidyMessage
  exact ⟨inspection, hinspection, hdescribes.length_eq, hdescribes.accepted_eq⟩

end SegmentWire
