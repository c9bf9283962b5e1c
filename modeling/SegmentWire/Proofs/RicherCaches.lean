import SegmentWire.Proofs.Grammar
import SegmentWire.Proofs.RoundTrip

/-!
# Richer caches

What has to be introduced to a receiver that holds more, has to be introduced to one
that holds less. A segment is introduced if it is needed before it is listed, and a
path of unknown segments that leads to it in the richer cache is one in the poorer
cache too. So a receiver that holds more is never sent more records.
-/
namespace SegmentWire

/-! ### What is introduced -/

/-- Who knows less is introduced to more. -/
lemma Introduced.mono {known others segments : List Segment} {s : Segment}
    (h : Introduced others segments s) (hsub : known ⊆ others) : Introduced known segments s := by
  obtain ⟨t, ht, hnew, hpath⟩ := h
  exact ⟨t, ht, fun hknown => hnew (hsub hknown), hpath.mono hsub⟩

/-- A segment is introduced exactly if it is not known and one of the listed segments needs it
before it is listed itself. -/
theorem introduction_mem_iff {known segments : List Segment} {s : Segment} :
    .introduction s ∈ notices known segments ↔
      s ∉ known ∧ ∃ i, s ∉ segments.take i ∧ Introduced known (segments.take i) s := by
  constructor
  · intro h
    have hnew : s ∉ known := by
      have hcarried : s ∈ contents (notices known segments) := mem_contents.mpr (.inl h)
      exact (notices_coherent known segments).orderly.notMem_known hcarried
    refine ⟨hnew, ?_⟩
    induction segments generalizing known with
    | nil => simp at h
    | cons t segments ih =>
      obtain h | h := List.mem_append.mp h
      · -- It is introduced for the first segment, which is not known and taller.
        by_cases ht : t ∈ known
        · simp [Segment.notices_of_mem ht] at h
        · have hs : s ∈ t.unknown known := by simpa [Segment.notices_of_notMem ht] using h
          have hpath := Segment.mem_unknown_iff.mp hs
          have hne : s ≠ t := by
            rintro rfl
            exact Nat.lt_irrefl _ hpath.height_lt
          exact ⟨1, by simpa using hne, t, by simp, ht, hpath⟩
      · have hlater : s ∉ known ++ contents (t.notices known) := by
          have hcarried : s ∈ contents (notices _ segments) := mem_contents.mpr (.inl h)
          exact (notices_coherent _ segments).orderly.notMem_known hcarried
        have hne : s ≠ t := by
          rintro rfl
          exact hlater (s.mem_known_notices known)
        obtain ⟨i, hlisted, hintroduced⟩ := ih h hlater
        refine ⟨i + 1, by simpa using ⟨hne, hlisted⟩, ?_⟩
        obtain ⟨r, hr, hfresh, hpath⟩ := hintroduced.mono (List.subset_append_left known _)
        exact ⟨r, List.mem_cons_of_mem t hr, hfresh, hpath⟩
  · rintro ⟨hnew, i, hlisted, hintroduced⟩
    have hknown : s ∈ known ++ contents (notices known (segments.take i)) :=
      mem_known_notices_iff.mpr (.inr (.inr hintroduced))
    have hcarried := (List.mem_append.mp hknown).resolve_left hnew
    -- Until then it is not listed, so that no announcement can carry it.
    have hsent : .introduction s ∈ notices known (segments.take i) :=
      (mem_contents.mp hcarried).resolve_right fun h => hlisted (mem_of_announcement_mem h)
    rw [← List.take_append_drop i segments, notices_append]
    exact List.mem_append_left _ hsent

section Richer

variable {cache richer segments : List Segment}

lemma introduction_mem_of_richer (hsub : cache ⊆ richer) {s : Segment}
    (h : .introduction s ∈ notices richer segments) : .introduction s ∈ notices cache segments := by
  obtain ⟨hnew, i, hlisted, hintroduced⟩ := introduction_mem_iff.mp h
  exact introduction_mem_iff.mpr
    ⟨fun hcached => hnew (hsub hcached), i, hlisted, hintroduced.mono hsub⟩

lemma marked_false_notices_subset (hsub : cache ⊆ richer) :
    marked false ((notices richer segments).map Notice.receipt) ⊆
      marked false ((notices cache segments).map Notice.receipt) :=
  fun _ hs => mem_marked_false_notices.mpr
    (introduction_mem_of_richer hsub (mem_marked_false_notices.mp hs))

lemma length_notices_le_of_subset (hsub : cache ⊆ richer) :
    (notices richer segments).length ≤ (notices cache segments).length := by
  rw [length_notices cache segments]
  refine length_notices_le_of_introductions fun s hs => ?_
  exact mem_marked_false_notices.mpr (introduction_mem_of_richer hsub hs)

end Richer

/-! ### What is sent -/

/-- Notices that are in order and fit make up a message that says what they say. -/
theorem grammatical_ofNotices {config : Config} {cache : List Segment} {sent : List Notice}
    (hcoherent : Coherent cache sent) (hfits : Fits config cache sent)
    (source destination : IsdAsn) :
    ∃ records, Grammatical config cache
        (EncodedMessage.ofNotices cache sent source destination).bytes records [] ∧
      readings cache records = sent.map Notice.receipt := by
  obtain ⟨layout, -, -, htrailing, hflags, hdenote⟩ :=
    exists_layout_ofNotices hcoherent hfits source destination
  obtain ⟨hgrammatical, hbuilt⟩ := layout.grammatical hdenote
  rw [htrailing] at hgrammatical
  refine ⟨layout.records, hgrammatical, receipts_ext ?_ ?_⟩
  · rw [map_accepted_readings, hflags, List.map_map]
    rfl
  · have hknown := congrArg (fun inc : Incoming => inc.known.toList) hbuilt
    simpa [Incoming.ofNotices, Incoming.ofReceipts] using hknown.symm

/-- Of two messages for the same segments, the one to a receiver that holds all that the other
holds, and possibly more, has no more records than the other, and the segments that it sends
without being accepted are among those of the other. -/
theorem encode_richer_cache {config : Config} {cache richer segments : List Segment}
    {source destination : IsdAsn} {message leaner : EncodedMessage} (hsub : cache ⊆ richer)
    (distinct : CollisionFree (involved richer segments))
    (h : encode config cache segments source destination = .ok message)
    (hricher : encode config richer segments source destination = .ok leaner) :
    ∃ records fewer : List WireRecord,
      Grammatical config cache message.bytes records [] ∧
      message.sent = (readings cache records).map Receipt.segment ∧
      Grammatical config richer leaner.bytes fewer [] ∧
      leaner.sent = (readings richer fewer).map Receipt.segment ∧
      fewer.length ≤ records.length ∧
      marked false (readings richer fewer) ⊆ marked false (readings cache records) := by
  have hpoorer : CollisionFree (involved cache segments) :=
    distinct.mono (List.append_subset.mpr
      ⟨List.subset_append_of_subset_left _ hsub, List.subset_append_right _ _⟩)
  obtain ⟨hfits, rfl⟩ := (encode_eq_ok_iff config hpoorer source destination message).mp h
  obtain ⟨hfits', rfl⟩ := (encode_eq_ok_iff config distinct source destination leaner).mp hricher
  obtain ⟨records, hgrammatical, hreadings⟩ :=
    grammatical_ofNotices (notices_coherent cache segments) hfits source destination
  obtain ⟨fewer, hgrammatical', hreadings'⟩ :=
    grammatical_ofNotices (notices_coherent richer segments) hfits' source destination
  have hcount : records.length = (notices cache segments).length := by
    simpa using congrArg List.length hreadings
  have hcount' : fewer.length = (notices richer segments).length := by
    simpa using congrArg List.length hreadings'
  refine ⟨records, fewer, hgrammatical, ?_, hgrammatical', ?_, ?_, ?_⟩
  · rw [hreadings, List.map_map]
    rfl
  · rw [hreadings', List.map_map]
    rfl
  · rw [hcount, hcount']
    exact length_notices_le_of_subset hsub
  · rw [hreadings, hreadings']
    exact marked_false_notices_subset hsub

/-- A tree is cached besides a leaf. The pair of the tree and another leaf needs that leaf in any
case, but the tree only if it is not cached. -/
theorem encode_richer_cache_tree :
    ∃ (message leaner : EncodedMessage) (records fewer : List WireRecord),
      encode {} [Sample.literal 4 4]
        [.ofSegments [Sample.tree 1 1, Sample.literal 8 4], Sample.literal 8 4] ⟨1⟩ ⟨2⟩ =
          .ok message ∧
      encode {} [Sample.tree 1 1, Sample.literal 4 4]
        [.ofSegments [Sample.tree 1 1, Sample.literal 8 4], Sample.literal 8 4] ⟨1⟩ ⟨2⟩ =
          .ok leaner ∧
      Grammatical {} [Sample.literal 4 4] message.bytes records [] ∧
      Grammatical {} [Sample.tree 1 1, Sample.literal 4 4] leaner.bytes fewer [] ∧
      fewer.length ≤ records.length ∧
      marked false (readings [Sample.tree 1 1, Sample.literal 4 4] fewer) ⊆
        marked false (readings [Sample.literal 4 4] records) := by
  have hsub : [Sample.literal 4 4] ⊆ [Sample.tree 1 1, Sample.literal 4 4] := by simp
  have distinct : CollisionFree (involved [Sample.tree 1 1, Sample.literal 4 4]
      [.ofSegments [Sample.tree 1 1, Sample.literal 8 4], Sample.literal 8 4]) := by
    decide +kernel
  have hpoorer : CollisionFree (involved [Sample.literal 4 4]
      [.ofSegments [Sample.tree 1 1, Sample.literal 8 4], Sample.literal 8 4]) :=
    distinct.mono (List.subset_cons_self _ _)
  have hfits : Fits {} [Sample.literal 4 4] (notices [Sample.literal 4 4]
      [.ofSegments [Sample.tree 1 1, Sample.literal 8 4], Sample.literal 8 4]) := by
    decide +kernel
  have hfits' : Fits {} [Sample.tree 1 1, Sample.literal 4 4]
      (notices [Sample.tree 1 1, Sample.literal 4 4]
        [.ofSegments [Sample.tree 1 1, Sample.literal 8 4], Sample.literal 8 4]) := by
    decide +kernel
  have hencode := (encode_eq_ok_iff {} hpoorer ⟨1⟩ ⟨2⟩ _).mpr ⟨hfits, rfl⟩
  have hencode' := (encode_eq_ok_iff {} distinct ⟨1⟩ ⟨2⟩ _).mpr ⟨hfits', rfl⟩
  obtain ⟨records, fewer, hrecords, -, hfewer, -, hcount, hmarked⟩ :=
    encode_richer_cache hsub distinct hencode hencode'
  exact ⟨_, _, records, fewer, hencode, hencode', hrecords, hfewer, hcount, hmarked⟩

end SegmentWire
