import SegmentWire.Proofs.RoundTrip

/-!
# The numbering on the wire

The header counts the cache and the records. Each record refers to segments before
it only: a cached child by its last position in the cache, any other child by the
one record that carries it. A wrapper carries nothing, so nothing refers to it.
-/
namespace SegmentWire

/-- The notice at a position carries the segment, and is not just a reminder of it. -/
def Carries (sent : List Notice) (j : Nat) (s : Segment) : Prop :=
  ∃ n, sent[j]? = some n ∧ n.content? = some s

lemma carries_iff {sent : List Notice} {j : Nat} {s : Segment} :
    Carries sent j s ↔ (sent.map Notice.content?)[j]? = some (some s) := by
  rw [List.getElem?_map, Option.map_eq_some_iff]
  rfl

lemma Carries.of_take {sent : List Notice} {i j : Nat} {s : Segment}
    (h : Carries (sent.take i) j s) : Carries sent j s := by
  obtain ⟨n, hn, hcontent⟩ := h
  refine ⟨n, ?_, hcontent⟩
  rw [List.getElem?_take] at hn
  split at hn
  · exact hn
  · cases hn

/-- The position by which the record at position `own` refers to a child. -/
structure Refers (cache : List Segment) (sent : List Notice) (own : Nat) (c : Segment)
    (p : UInt16) : Prop where
  lt_own : p.toNat < own
  last_cached : c ∈ cache → cache[p.toNat]? = some c ∧ ∀ q, p.toNat < q → cache[q]? ≠ some c
  only_carrier : c ∉ cache → ∃ j, p.toNat = cache.length + j ∧ Carries sent j c ∧
    ∀ k, Carries sent k c → k = j

/-- The entries of the record at position `own` are those of a segment. -/
inductive Payload.Lists (cache : List Segment) (sent : List Notice) (own : Nat) :
    Payload → Segment → Prop
  | interfaces (hops : List PathInterface) : Lists cache sent own (.interfaces hops) (.literal hops)
  | references {segments : SegmentList} {positions : List UInt16} :
      List.Forall₂ (Refers cache sent own) segments.toList positions →
      Lists cache sent own (.references positions) (.composition segments)

/-- The record at position `own` is that of a notice. -/
structure Record.Describes (cache : List Segment) (sent : List Notice) (own : Nat) (r : Record)
    (n : Notice) : Prop where
  accepted_eq : r.accepted = n.accepted
  count_le : r.payload.count ≤ 255
  lists : r.payload.Lists cache sent own n.segment

namespace Coherent

variable {cache : List Segment} {sent : List Notice}

lemma take (h : Coherent cache sent) (i : Nat) : Coherent cache (sent.take i) := by
  induction h with
  | nil => simpa using Coherent.nil
  | @concat sent n hsent hchildren hnew ih =>
    by_cases hi : i ≤ sent.length
    · rwa [List.take_append_of_le_length hi]
    · rw [List.take_of_length_le (by simp; omega)]
      exact hsent.concat hchildren hnew

/-- The children of a notice are known when it is sent. -/
lemma children_subset (h : Coherent cache sent) {i : Nat} {n : Notice} (hn : sent[i]? = some n) :
    n.segment.children ⊆ cache ++ contents (sent.take i) := by
  induction h with
  | nil => simp at hn
  | @concat sent m _ hchildren _ ih =>
    have hi : i < sent.length + 1 := by
      simpa using (List.getElem?_eq_some_iff.mp hn).1
    rw [List.take_append_of_le_length (Nat.le_of_lt_succ hi)]
    by_cases hlast : i = sent.length
    · rw [hlast, List.getElem?_concat_length] at hn
      rw [hlast, List.take_length, ← Option.some.inj hn]
      exact hchildren
    · rw [List.getElem?_append_left (by omega)] at hn
      exact ih hn

/-- No segment is carried twice. -/
lemma carries_unique (h : Coherent cache sent) {j k : Nat} {s : Segment} (hj : Carries sent j s)
    (hk : Carries sent k s) : j = k := by
  have hnodup := h.orderly.nodup
  rw [contents, List.Nodup, List.pairwise_filterMap, List.pairwise_iff_getElem] at hnodup
  have hapart : ∀ {j k : Nat}, j < k → Carries sent j s → ¬ Carries sent k s := by
    intro j k hlt hj hk
    obtain ⟨m, hm, hcontent⟩ := hj
    obtain ⟨n, hn, hcontent'⟩ := hk
    obtain ⟨hj, rfl⟩ := List.getElem?_eq_some_iff.mp hm
    obtain ⟨hk, rfl⟩ := List.getElem?_eq_some_iff.mp hn
    exact hnodup j k hj hk hlt s hcontent s hcontent' rfl
  obtain hlt | heq | hlt := Nat.lt_trichotomy j k
  · exact absurd hk (hapart hlt hj)
  · exact heq
  · exact absurd hj (hapart hlt hk)

/-- A reference names the child's last position in the cache, or else its record. -/
lemma refers (h : Coherent cache sent) (htotal : cache.length + sent.length ≤ 65536) {i : Nat}
    (hi : i < sent.length) {c : Segment} (hknown : c ∈ cache ++ contents (sent.take i)) :
    Refers cache sent (cache.length + i) c (position (slots cache (sent.take i)) c) := by
  have hlength : (slots cache (sent.take i)).length = cache.length + i := by
    rw [length_slots, List.length_take, Nat.min_eq_left (Nat.le_of_lt hi)]
  have hlast := position_spec (by omega) (mem_slots.mpr hknown)
  generalize position (slots cache (sent.take i)) c = p at hlast
  constructor
  · have hlt := lastPosition?_lt hlast
    omega
  · intro hcached
    have hnot : some c ∉ (sent.take i).map Notice.content? := by
      intro hmem
      obtain ⟨n, hn, hcontent⟩ := List.mem_map.mp hmem
      have hsent : c ∈ contents (sent.take i) := List.mem_filterMap.mpr ⟨n, hn, hcontent⟩
      exact (h.take i).orderly.notMem_known hsent hcached
    rw [slots, lastPosition?_append_of_notMem hnot] at hlast
    simpa using lastPosition?_eq_some_iff.mp hlast
  · intro hnew
    have hslot := (lastPosition?_eq_some_iff.mp hlast).1
    have hge : cache.length ≤ p.toNat := by
      by_contra hlt
      rw [slots, List.getElem?_append_left (by simpa using hlt), List.getElem?_map] at hslot
      exact hnew (List.mem_of_getElem? (by simpa using hslot))
    rw [slots, List.getElem?_append_right (by simpa using hge), List.length_map,
      ← carries_iff] at hslot
    have hcarries : Carries sent _ c := hslot.of_take
    exact ⟨_, (Nat.add_sub_cancel' hge).symm, hcarries, fun k hk => h.carries_unique hk hcarries⟩

/-- The records of notices describe them. -/
theorem describes {config : Config} (h : Coherent cache sent) (hfits : Fits config cache sent)
    {i : Nat} {n : Notice} (hn : sent[i]? = some n) :
    (n.record (slots cache (sent.take i))).Describes cache sent (cache.length + i) n := by
  have hi := (List.getElem?_eq_some_iff.mp hn).1
  have hchildren := h.children_subset hn
  refine ⟨rfl, ?_, ?_⟩
  · rw [Notice.record, Segment.count_payload]
    exact hfits.length_le n (List.mem_of_getElem? hn)
  · unfold Notice.record
    cases hsegment : n.segment with
    | literal interfaces => exact .interfaces interfaces
    | composition segments =>
      rw [hsegment] at hchildren
      refine .references ?_
      rw [List.forall₂_map_right_iff, List.forall₂_same]
      exact fun c hc => h.refers (Nat.le_of_lt hfits.total_lt) hi (hchildren hc)

end Coherent

/-- A message counts the cache and its records, has one record for each segment sent, and each
record refers to segments before it by their numbers. -/
theorem encode_numbering {config : Config} {cache segments : List Segment}
    {source destination : IsdAsn} {message : EncodedMessage}
    (distinct : CollisionFree (involved cache segments))
    (h : encode config cache segments source destination = .ok message) :
    ∃ (header : Header) (records : List Record), Header.parse message.bytes = .ok header ∧
      message.bytes.drop header.length.toNat = records.flatMap Record.toBytes ∧
      header.total.toNat = cache.length + records.length ∧
      records.length = message.sent.length ∧
      message.sent = (notices cache segments).map Notice.segment ∧
      ∀ (i : Nat) (n : Notice), (notices cache segments)[i]? = some n →
        ∃ r : Record, records[i]? = some r ∧
          r.Describes cache (notices cache segments) (cache.length + i) n := by
  obtain ⟨hfits, rfl⟩ := (encode_eq_ok_iff config distinct source destination message).mp h
  have hcoherent := notices_coherent cache segments
  refine ⟨_, recordsFrom (cache.map some) (notices cache segments),
    Header.parse_toBytes_append _ _, ?_, ?_, ?_, rfl, ?_⟩
  · exact List.drop_left' (Header.length_toBytes _)
  · rw [length_recordsFrom]
    exact UInt16.toNat_ofNat_of_lt' hfits.total_lt
  · rw [length_recordsFrom, EncodedMessage.ofNotices, List.length_map]
  · intro i n hn
    refine ⟨_, ?_, hcoherent.describes hfits hn⟩
    rw [recordsFrom_getElem?, hn, Option.map_some]

/-- A leaf that is cached twice is recalled, and then a tree is announced over it. -/
theorem encode_numbering_cached_twice :
    ∃ (message : EncodedMessage) (header : Header) (records : List Record) (r : Record),
      encode {} [Sample.literal 4 4, Sample.literal 4 4] [Sample.literal 4 4, Sample.tree 1 2]
        ⟨1⟩ ⟨2⟩ = .ok message ∧
      Header.parse message.bytes = .ok header ∧ header.total.toNat = 2 + records.length ∧
      records[2]? = some r ∧
      r.Describes [Sample.literal 4 4, Sample.literal 4 4]
        [.reminder (Sample.literal 4 4), .introduction (Sample.literal 8 4),
          .announcement (Sample.tree 1 2)] 4 (.announcement (Sample.tree 1 2)) := by
  have distinct : CollisionFree (involved [Sample.literal 4 4, Sample.literal 4 4]
      [Sample.literal 4 4, Sample.tree 1 2]) := by
    decide +kernel
  have hnotices : notices [Sample.literal 4 4, Sample.literal 4 4]
      [Sample.literal 4 4, Sample.tree 1 2] =
        [.reminder (Sample.literal 4 4), .introduction (Sample.literal 8 4),
          .announcement (Sample.tree 1 2)] := by
    decide +kernel
  have hfits : Fits {} [Sample.literal 4 4, Sample.literal 4 4]
      (notices [Sample.literal 4 4, Sample.literal 4 4] [Sample.literal 4 4, Sample.tree 1 2]) := by
    decide +kernel
  have hencode := (encode_eq_ok_iff {} distinct ⟨1⟩ ⟨2⟩ _).mpr ⟨hfits, rfl⟩
  obtain ⟨header, records, hheader, -, htotal, -, -, hrecords⟩ := encode_numbering distinct hencode
  rw [hnotices] at hrecords
  obtain ⟨r, hr, hdescribes⟩ := hrecords 2 _ rfl
  exact ⟨_, header, records, r, hencode, hheader, htotal, hr, hdescribes⟩

end SegmentWire
