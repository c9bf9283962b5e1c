import Mathlib.Data.List.Induction
import SegmentWire.Proofs.Decoding
import SegmentWire.Proofs.Receipts

/-!
# What is received

The receiver builds one segment for each record. Its children are cached or come
from records before it, it has no more entries than a record can count, and it is
no taller than the receiver allows.
-/
namespace SegmentWire

/-- Segments that records can stand for, in record order. -/
inductive Receivable (config : Config) (cache : List Segment) : List Receipt → Prop
  | nil : Receivable config cache []
  | concat {received : List Receipt} {r : Receipt} : Receivable config cache received →
      r.segment.length ≤ 255 → r.segment.height ≤ config.maxDepth →
      r.segment.children ⊆ cache ++ received.map Receipt.segment →
      Receivable config cache (received ++ [r])

/-- Each segment is within the limits, over children that the receiver holds. -/
lemma Receivable.spec {config : Config} {cache : List Segment} {received : List Receipt}
    {s : Segment} (h : Receivable config cache received)
    (hs : s ∈ received.map Receipt.segment) :
    s.length ≤ 255 ∧ s.height ≤ config.maxDepth ∧
      s.children ⊆ cache ++ received.map Receipt.segment := by
  induction h with
  | nil => simp at hs
  | concat _ hlength hheight hchildren ih =>
    rw [List.map_append, List.mem_append, List.map_singleton, List.mem_singleton] at hs
    rw [List.map_append, ← List.append_assoc]
    obtain hs | rfl := hs
    · obtain ⟨hlength, hheight, hchildren⟩ := ih hs
      exact ⟨hlength, hheight, List.subset_append_of_subset_left _ hchildren⟩
    · exact ⟨hlength, hheight, List.subset_append_of_subset_left _ hchildren⟩

namespace Incoming

variable {config : Config} {inc : Incoming}

/-- A position resolves to the segment that it numbers, if that is not too tall. -/
lemma resolve_eq_ok_iff {p : UInt16} {s : Segment} :
    inc.resolve config p = .ok s ↔
      inc.known.toList[p.toNat]? = some s ∧ s.height ≤ config.maxDepth := by
  rw [Array.getElem?_toList, resolve]
  cases hheld : inc.known[p.toNat]? with
  | none => simp
  | some t =>
    by_cases hdeep : config.maxDepth < t.height
    · simp only [if_pos hdeep, reduceCtorEq, Option.some.injEq, false_iff]
      rintro ⟨rfl, hheight⟩
      omega
    · simp only [if_neg hdeep, Except.ok.injEq, Option.some.injEq]
      constructor
      · rintro rfl
        exact ⟨rfl, Nat.not_lt.mp hdeep⟩
      · exact fun h => h.1

lemma mem_of_resolve {p : UInt16} {s : Segment} (h : inc.resolve config p = .ok s) :
    s ∈ inc.known.toList :=
  List.mem_of_getElem? (resolve_eq_ok_iff.mp h).1

/-- A composition is built exactly if it is not too tall. -/
lemma build_eq_ok_iff {children : List Segment} {s : Segment} :
    (if config.maxDepth < (Segment.ofSegments children).height then
      (.error (.nestingTooDeep config.maxDepth) : Except CodecError Segment)
    else .ok (Segment.ofSegments children)) = .ok s ↔
      (Segment.ofSegments children).height ≤ config.maxDepth ∧
        s = Segment.ofSegments children := by
  by_cases hdeep : config.maxDepth < (Segment.ofSegments children).height
  · rw [if_pos hdeep]
    simp [Nat.not_le.mpr hdeep]
  · rw [if_neg hdeep, Except.ok.injEq, and_iff_right (Nat.not_lt.mp hdeep), eq_comm]

/-- A record stands for a segment with as many entries, over children that are numbered already. -/
lemma denote_eq_ok {payload : Payload} {s : Segment} (h : inc.denote config payload = .ok s) :
    s.length = payload.count ∧ s.height ≤ config.maxDepth ∧ s.children ⊆ inc.known.toList := by
  cases payload with
  | interfaces hops =>
    cases h
    exact ⟨rfl, Nat.zero_le _, List.nil_subset _⟩
  | references positions =>
    obtain ⟨children, hchildren, hbuild⟩ := bind_eq_ok.mp h
    have hresolved := mapM_eq_ok_iff.mp hchildren
    have hknown : children ⊆ inc.known.toList := by
      clear h hchildren hbuild
      induction hresolved with
      | nil => exact List.nil_subset _
      | cons hc _ ih => exact List.cons_subset.mpr ⟨mem_of_resolve hc, ih⟩
    obtain ⟨hheight, rfl⟩ := build_eq_ok_iff.mp hbuild
    refine ⟨?_, hheight, by simpa using hknown⟩
    rw [Segment.ofSegments, Segment.length_composition, SegmentList.toList_ofList]
    exact hresolved.length_eq.symm

/-- A receiver that has built the given segments. -/
def ofReceipts (cache : List Segment) (received : List Receipt) : Incoming :=
  ⟨(cache ++ received.map Receipt.segment).toArray, (marked true received).toArray⟩

lemma ofCache_eq_ofReceipts (cache : List Segment) : ofCache cache = ofReceipts cache [] := by
  simp [ofCache, ofReceipts, marked]

lemma add_ofReceipts (cache : List Segment) (received : List Receipt) (flags : RecordFlags)
    (s : Segment) :
    (ofReceipts cache received).add flags s =
      ofReceipts cache (received ++ [⟨flags.accepted, s⟩]) := by
  rw [add, ofReceipts, ofReceipts, marked_append, marked_singleton]
  cases flags.accepted <;> simp

/-- Records that can be read stand for segments that can be received. -/
theorem denoteAll_eq_ok {config : Config} {cache : List Segment} {ws : List WireRecord}
    {inc : Incoming} (h : (ofCache cache).denoteAll config ws = .ok inc) :
    ∃ received, Receivable config cache received ∧
      received.map Receipt.accepted = ws.map WireRecord.accepted ∧
      inc = ofReceipts cache received := by
  induction ws using List.reverseRecOn generalizing inc with
  | nil =>
    cases h
    exact ⟨[], .nil, rfl, by simp [ofCache, ofReceipts, marked]⟩
  | append_singleton ws w ih =>
    rw [denoteAll_concat] at h
    obtain ⟨before, hbefore, h⟩ := bind_eq_ok.mp h
    obtain ⟨s, hs, h⟩ := bind_eq_ok.mp h
    obtain ⟨received, hreceived, hflags, rfl⟩ := ih hbefore
    obtain ⟨hlength, hheight, hchildren⟩ := denote_eq_ok hs
    refine ⟨received ++ [⟨w.accepted, s⟩], hreceived.concat ?_ hheight ?_, ?_, ?_⟩
    · rw [hlength]
      exact w.count_le
    · simpa [ofReceipts] using hchildren
    · rw [List.map_append, hflags, List.map_append]
      rfl
    · rw [← Except.ok.inj h, add_ofReceipts]
      rfl

end Incoming

/-- What decodes is what can be received. -/
theorem decode_receivable {config : Config} {cache : List Segment} {bs : Bytes}
    {message : DecodedMessage} (h : decode config bs cache = .ok message) :
    ∃ received, Receivable config cache received ∧
      message.newSegments = received.map Receipt.segment ∧
      message.acceptedSegments = marked true received ∧
      cache.length + received.length < 65536 := by
  obtain ⟨layout, inc, hdenote, rfl⟩ := decode_eq_ok_iff.mp h
  obtain ⟨received, hreceived, hflags, rfl⟩ := Incoming.denoteAll_eq_ok hdenote
  have hcount : received.length = layout.records.length := by
    simpa using congrArg List.length hflags
  refine ⟨received, hreceived, ?_, rfl, ?_⟩
  · simp [DecodedMessage.ofIncoming, Incoming.ofReceipts]
  · rw [hcount, ← layout.total_eq]
    exact layout.header.total.toNat_lt

end SegmentWire
