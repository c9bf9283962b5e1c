import SegmentWire.Proofs.Encoding
import SegmentWire.Sample

/-!
# When encoding succeeds

No limit comes into the notices of a message: they are what encoding sends if
nothing stops it. They fit if their positions can be counted, if each segment that
is sent itself has few enough entries, and if nothing sent is too tall. Encoding
succeeds exactly then. What is cached counts towards the positions and is otherwise
not looked at, however long or tall it is.
-/
namespace SegmentWire

section Fitting

variable {config : Config} {cache : List Segment} {sent : List Notice}

/-- A wrapper has one entry, so only contents can be too long. -/
lemma Notice.forall_length_le_iff :
    (∀ n ∈ sent, n.segment.length ≤ 255) ↔ ∀ s ∈ contents sent, s.length ≤ 255 := by
  constructor
  · intro h s hs
    obtain ⟨n, hn, hcontent⟩ := List.mem_filterMap.mp hs
    rw [← Notice.segment_of_content? hcontent]
    exact h n hn
  · intro h n hn
    cases n with
    | introduction s => exact h s (mem_contents.mpr (.inl hn))
    | announcement s => exact h s (mem_contents.mpr (.inr hn))
    | reminder s => simp [Notice.segment]

lemma fits_iff : Fits config cache sent ↔
    cache.length + sent.length ≤ 65535 ∧ (∀ s ∈ contents sent, s.length ≤ 255) ∧
      ∀ n ∈ sent, n.segment.height ≤ config.maxDepth := by
  rw [← Notice.forall_length_le_iff]
  constructor
  · intro h
    exact ⟨Nat.le_of_lt_succ h.total_lt, h.length_le, h.height_le⟩
  · intro h
    exact ⟨Nat.lt_succ_of_le h.1, h.2.1, h.2.2⟩

/-- The errors that tell of a broken limit. -/
lemma Breaks.error_cases {e : CodecError} (h : Breaks config cache sent e) :
    e = .nestingTooDeep config.maxDepth ∨ (∃ length, 255 < length ∧ e = .segmentTooLong length) ∨
      e = .indexOverflow 65536 := by
  cases h with
  | tooDeep _ _ => exact .inl rfl
  | tooLong _ hlong => exact .inr (.inl ⟨_, hlong, rfl⟩)
  | tooMany _ => exact .inr (.inr rfl)

end Fitting

section Success

variable {config : Config} {cache segments : List Segment}

lemma encode_isOk_iff (distinct : CollisionFree (involved cache segments))
    (source destination : IsdAsn) :
    (∃ message, encode config cache segments source destination = .ok message) ↔
      Fits config cache (notices cache segments) := by
  constructor
  · intro h
    obtain ⟨message, hmessage⟩ := h
    exact ((encode_eq_ok_iff config distinct source destination message).mp hmessage).1
  · intro hfits
    exact ⟨_, (encode_eq_ok_iff config distinct source destination _).mpr ⟨hfits, rfl⟩⟩

/-- A cache of the same size that knows the same of the segments to be sent has the same limits. -/
lemma fits_congr {other : List Segment} (hlength : other.length = cache.length)
    (hsame : ∀ s ∈ segments, ∀ t ∈ s :: s.properSubsegments, t ∈ other ↔ t ∈ cache) :
    Fits config other (notices other segments) ↔ Fits config cache (notices cache segments) := by
  rw [fits_iff, fits_iff, notices_congr hsame, hlength]

/-- Encoding succeeds exactly if the notices fit, and then it sends them. Otherwise it names the
depth limit, a length that no record can count or the first position past the last one. Cached
segments matter only by their number and by which of the segments to be sent they are. -/
theorem encode_limits (distinct : CollisionFree (involved cache segments))
    (source destination : IsdAsn) :
    ((∃ message, encode config cache segments source destination = .ok message) ↔
      cache.length + (notices cache segments).length ≤ 65535 ∧
        (∀ s ∈ contents (notices cache segments), s.length ≤ 255) ∧
        ∀ n ∈ notices cache segments, n.segment.height ≤ config.maxDepth) ∧
    (∀ message, encode config cache segments source destination = .ok message →
      message = .ofNotices cache (notices cache segments) source destination) ∧
    (∀ e, encode config cache segments source destination = .error e →
      e = .nestingTooDeep config.maxDepth ∨ (∃ length, 255 < length ∧ e = .segmentTooLong length) ∨
        e = .indexOverflow 65536) ∧
    ∀ other : List Segment, other.length = cache.length →
      (∀ s ∈ segments, ∀ t ∈ s :: s.properSubsegments, t ∈ other ↔ t ∈ cache) →
      CollisionFree (involved other segments) →
      ((∃ message, encode config other segments source destination = .ok message) ↔
        ∃ message, encode config cache segments source destination = .ok message) := by
  refine ⟨?_, ?_, ?_, ?_⟩
  · rw [encode_isOk_iff distinct, fits_iff]
  · intro message h
    exact ((encode_eq_ok_iff config distinct source destination message).mp h).2
  · intro e h
    obtain ⟨-, hencode⟩ | ⟨f, hbreaks, hencode⟩ :=
      encode_cases config distinct source destination
    · rw [hencode] at h
      cases h
    · rw [hencode] at h
      cases h
      exact hbreaks.error_cases
  · intro other hlength hsame hdistinct
    rw [encode_isOk_iff hdistinct, encode_isOk_iff distinct, fits_congr hlength hsame]

/-- A literal that is too long for a record is cached. It can be announced by its wrapper, as long
as that is not too tall. A cached tree that is too tall is in nobody's way. -/
theorem encode_limits_cached :
    (∃ message, encode { maxDepth := 1 } [Sample.literal 0 256] [Sample.literal 0 256] ⟨1⟩ ⟨2⟩ =
      .ok message) ∧
    (¬ ∃ message, encode { maxDepth := 0 } [Sample.literal 0 256] [Sample.literal 0 256] ⟨1⟩ ⟨2⟩ =
      .ok message) ∧
    ∃ message, encode { maxDepth := 0 } [Sample.tree 1 1] [Sample.literal 8 4] ⟨1⟩ ⟨2⟩ =
      .ok message := by
  have distinct : CollisionFree (involved [Sample.literal 0 256] [Sample.literal 0 256]) := by
    intro a ha b hb _
    have hinvolved : involved [Sample.literal 0 256] [Sample.literal 0 256] =
        [Sample.literal 0 256, Sample.literal 0 256] := rfl
    rw [hinvolved] at ha hb
    simp_all
  have hnotices : notices [Sample.literal 0 256] [Sample.literal 0 256] =
      [.reminder (Sample.literal 0 256)] := by
    simp [notices, Segment.notices]
  refine ⟨?_, ?_, ?_⟩
  · refine (encode_limits distinct ⟨1⟩ ⟨2⟩).1.mpr ?_
    rw [hnotices]
    decide
  · intro h
    have hheight := ((encode_limits distinct ⟨1⟩ ⟨2⟩).1.mp h).2.2
    rw [hnotices] at hheight
    revert hheight
    decide
  · -- A literal in the place of the tree is cached without harm, and the limits are the same.
    have hliteral : CollisionFree (involved [Sample.literal 4 4] [Sample.literal 8 4]) := by
      decide +kernel
    have htree : CollisionFree (involved [Sample.tree 1 1] [Sample.literal 8 4]) := by
      decide +kernel
    obtain ⟨-, -, -, hsame⟩ := encode_limits hliteral ⟨1⟩ ⟨2⟩
    refine (hsame [Sample.tree 1 1] rfl (by decide +kernel) htree).mpr ?_
    refine (encode_limits hliteral ⟨1⟩ ⟨2⟩).1.mpr ?_
    decide +kernel

end Success

end SegmentWire
