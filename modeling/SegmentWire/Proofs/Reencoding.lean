import SegmentWire.Message.Reencoding
import SegmentWire.Proofs.RoundTrip

/-!
# What was decoded can be encoded

When the accepted segments of a message are sent on to a receiver with the same
cache, each one that has to be introduced came in a record of its own that was not
accepted. So no more records are needed than came in. Only a wrapper can be too
tall, around a segment of the greatest height that is known already.
-/
namespace SegmentWire

/-- A listed segment of the greatest height is cached or was listed before. -/
def RepeatsDeepest (config : Config) (cache segments : List Segment) : Prop :=
  ∃ i s, segments[i]? = some s ∧ s.height = config.maxDepth ∧
    (s ∈ cache ∨ s ∈ segments.take i)

namespace Receivable

variable {config : Config} {cache : List Segment} {received : List Receipt}

/-- Children lead from a segment to records that are not accepted, as long as they are unknown to
one who knows the accepted ones. -/
lemma mem_of_uncovers (h : Receivable config cache received) {known : List Segment}
    (hcache : cache ⊆ known) (haccepted : marked true received ⊆ known) {s t : Segment}
    (hchildren : s.children ⊆ cache ++ received.map Receipt.segment)
    (hpath : s.Uncovers known t) : t ∈ marked false received := by
  have hchild : ∀ {r c : Segment}, r.children ⊆ cache ++ received.map Receipt.segment →
      c ∈ r.children → c ∉ known → c ∈ marked false received := by
    intro r c hsub hc hnew
    obtain hc | hc := List.mem_append.mp (hsub hc)
    · exact absurd (hcache hc) hnew
    · exact (mem_marked_or hc).resolve_left fun hmem => hnew (haccepted hmem)
  induction hpath with
  | child hc hnew => exact hchild hchildren hc hnew
  | step hc hnew _ ih =>
    have hc := hchild hchildren hc hnew
    exact ih (h.spec (marked_subset _ _ hc)).2.2

/-- Whatever is introduced for the accepted segments came in a record that was not accepted. -/
theorem mem_of_introduction (h : Receivable config cache received) {t : Segment}
    (ht : .introduction t ∈ notices cache (marked true received)) : t ∈ marked false received := by
  induction h with
  | nil => simp [marked] at ht
  | @concat received r hreceived _ _ hchildren ih =>
    rw [marked_append, marked_singleton] at ht ⊢
    have hearlier : .introduction t ∈ notices cache (marked true received) →
        t ∈ marked false received ++ if r.accepted = false then [r.segment] else [] :=
      fun ht => List.mem_append_left _ (ih ht)
    by_cases haccepted : r.accepted = true
    · rw [if_pos haccepted, notices_append] at ht
      obtain ht | ht := List.mem_append.mp ht
      · exact hearlier ht
      · -- The accepted segment is new, and only what it needs is introduced.
        obtain ⟨s, hs, -, hpath⟩ := introduced_of_mem ht
        rw [List.mem_singleton.mp hs] at hpath
        exact List.mem_append_left _ (hreceived.mem_of_uncovers (List.subset_append_left _ _)
          (subset_known_notices cache _) hchildren hpath)
    · rw [if_neg haccepted, List.append_nil] at ht
      exact hearlier ht

/-- The accepted segments need no more records than came in. -/
theorem length_notices_le (h : Receivable config cache received) :
    (notices cache (marked true received)).length ≤ received.length := by
  have hle := length_notices_le_of_introductions fun _ ht => h.mem_of_introduction ht
  have hreceived := length_marked received
  omega

/-- Apart from wrappers, what is sent on was received. -/
lemma mem_of_content (h : Receivable config cache received) {n : Notice} {s : Segment}
    (hn : n ∈ notices cache (marked true received)) (hcontent : n.content? = some s) :
    s ∈ received.map Receipt.segment := by
  cases n with
  | introduction t =>
    cases hcontent
    exact marked_subset _ _ (h.mem_of_introduction hn)
  | announcement t =>
    cases hcontent
    exact marked_subset _ _ (mem_of_announcement_mem hn)
  | reminder t => cases hcontent

lemma length_segment_le (h : Receivable config cache received) {n : Notice}
    (hn : n ∈ notices cache (marked true received)) : n.segment.length ≤ 255 := by
  cases hcontent : n.content? with
  | some s =>
    rw [Notice.segment_of_content? hcontent]
    exact (h.spec (h.mem_of_content hn hcontent)).1
  | none =>
    cases n with
    | introduction s => cases hcontent
    | announcement s => cases hcontent
    | reminder s => simp [Notice.segment]

/-- Only a wrapper can be too tall, around a segment of the greatest height. -/
lemma repeats_of_tooDeep (h : Receivable config cache received) {n : Notice}
    (hn : n ∈ notices cache (marked true received)) (hdeep : config.maxDepth < n.segment.height) :
    RepeatsDeepest config cache (marked true received) := by
  cases hcontent : n.content? with
  | some s =>
    rw [Notice.segment_of_content? hcontent] at hdeep
    have hheight := (h.spec (h.mem_of_content hn hcontent)).2.1
    omega
  | none =>
    cases n with
    | introduction s => cases hcontent
    | announcement s => cases hcontent
    | reminder s =>
      obtain ⟨i, hs, hknown⟩ := reminder_mem_iff.mp hn
      have hlimit : ∀ t ∈ marked true received, t.height ≤ config.maxDepth :=
        fun t ht => (h.spec (marked_subset _ _ ht)).2.1
      have hwrapper : config.maxDepth < s.height + 1 := by simpa [Notice.segment] using hdeep
      have hheight := hlimit s (List.mem_of_getElem? hs)
      refine ⟨i, s, hs, by omega, ?_⟩
      obtain hcached | hlisted | ⟨t, ht, -, hpath⟩ := mem_known_notices_iff.mp hknown
      · exact .inl hcached
      · exact .inr hlisted
      · have htaller := hlimit t (List.mem_of_mem_take ht)
        have hlower := hpath.height_lt
        omega

/-- The accepted segments can break no other limit. -/
lemma of_breaks (h : Receivable config cache received)
    (htotal : cache.length + received.length < 65536) {e : CodecError}
    (hbreaks : Breaks config cache (notices cache (marked true received)) e) :
    e = .nestingTooDeep config.maxDepth ∧ RepeatsDeepest config cache (marked true received) := by
  cases hbreaks with
  | tooDeep hn hdeep => exact ⟨rfl, h.repeats_of_tooDeep hn hdeep⟩
  | tooLong hn hlong =>
    have hlength := h.length_segment_le hn
    omega
  | tooMany hmany =>
    have hcount := h.length_notices_le
    omega

end Receivable

lemma RepeatsDeepest.not_fits {config : Config} {cache segments : List Segment}
    (h : RepeatsDeepest config cache segments) : ¬ Fits config cache (notices cache segments) := by
  obtain ⟨i, s, hs, hheight, hknown⟩ := h
  intro hfits
  have hmem : .reminder s ∈ notices cache segments := by
    refine reminder_mem_iff.mpr ⟨i, hs, mem_known_notices_iff.mpr ?_⟩
    exact hknown.imp_right .inl
  have hwrapper := hfits.height_le _ hmem
  rw [Notice.segment, Segment.height_wrapper] at hwrapper
  omega

/-- The accepted segments of a message can be encoded for its receiver, in no more records, unless
one of the greatest height is repeated. -/
theorem encode_accepted {config : Config} {cache : List Segment} {bs : Bytes}
    {message : DecodedMessage} (hdecode : decode config bs cache = .ok message)
    (distinct : CollisionFree (involved cache message.acceptedSegments))
    (source destination : IsdAsn) :
    (RepeatsDeepest config cache message.acceptedSegments ∧
      encode config cache message.acceptedSegments source destination =
        .error (.nestingTooDeep config.maxDepth)) ∨
    (¬ RepeatsDeepest config cache message.acceptedSegments ∧
      Fits config cache (notices cache message.acceptedSegments) ∧
      (notices cache message.acceptedSegments).length ≤ message.newSegments.length ∧
      encode config cache message.acceptedSegments source destination =
        .ok (.ofNotices cache (notices cache message.acceptedSegments) source destination)) := by
  obtain ⟨received, hreceived, hnew, haccepted, htotal⟩ := decode_receivable hdecode
  rw [haccepted] at distinct ⊢
  obtain ⟨hfits, hencode⟩ | ⟨e, hbreaks, hencode⟩ := encode_cases config distinct source destination
  · refine .inr ⟨fun hrepeats => hrepeats.not_fits hfits, hfits, ?_, hencode⟩
    rw [hnew, List.length_map]
    exact hreceived.length_notices_le
  · obtain ⟨rfl, hrepeats⟩ := hreceived.of_breaks htotal hbreaks
    exact .inl ⟨hrepeats, hencode⟩

lemma allReannounced_of_forall₂ {segments again : List Segment}
    (h : List.Forall₂ (fun s t => t = s ∨ t = s.wrapper) segments again) :
    allReannounced segments again = true := by
  induction h with
  | nil => rfl
  | cons hs _ ih =>
    rw [allReannounced, ih, Bool.and_true, Segment.isReannouncedAs]
    obtain rfl | rfl := hs <;> simp

theorem survivesReencoding_eq_true {bs : Bytes}
    (distinct : ∀ message, decode {} bs [] = .ok message →
      CollisionFree (involved [] message.acceptedSegments)) : survivesReencoding bs = true := by
  unfold survivesReencoding
  cases hdecode : decode {} bs [] with
  | error e => rfl
  | ok message =>
    obtain ⟨-, hencode⟩ | ⟨-, hfits, -, hencode⟩ :=
      encode_accepted hdecode (distinct message hdecode) message.source message.destination
    · simp only [hencode]
    · have hagain := decode_ofNotices (notices_coherent [] message.acceptedSegments) hfits
        message.source message.destination
      simp only [hencode, hagain]
      exact allReannounced_of_forall₂ (forall₂_acceptedSegments_notices _ _)

/-- What a message announces can be announced again to its receiver, in no more records, unless a
segment of the greatest height is repeated; then its wrapper is too tall. What is announced again
decodes to the same segments or their wrappers, so that every message survives. -/
theorem reencode_decoded :
    (∀ {config : Config} {cache : List Segment} {bs : Bytes} {message : DecodedMessage},
      decode config bs cache = .ok message →
      CollisionFree (involved cache message.acceptedSegments) → ∀ source destination : IsdAsn,
      (RepeatsDeepest config cache message.acceptedSegments ∧
        encode config cache message.acceptedSegments source destination =
          .error (.nestingTooDeep config.maxDepth)) ∨
      (¬ RepeatsDeepest config cache message.acceptedSegments ∧
        ∃ encoded again,
          encode config cache message.acceptedSegments source destination = .ok encoded ∧
          encoded.sent.length ≤ message.newSegments.length ∧
          decode config encoded.bytes cache = .ok again ∧
          List.Forall₂ (fun s t => t = s ∨ t = s.wrapper) message.acceptedSegments
            again.acceptedSegments)) ∧
    ∀ bs : Bytes,
      (∀ message, decode {} bs [] = .ok message →
        CollisionFree (involved [] message.acceptedSegments)) → survivesReencoding bs = true := by
  refine ⟨?_, fun bs distinct => survivesReencoding_eq_true distinct⟩
  intro config cache bs message hdecode distinct source destination
  refine (encode_accepted hdecode distinct source destination).imp_right ?_
  rintro ⟨hrepeats, hfits, hcount, hencode⟩
  refine ⟨hrepeats, _, _, hencode, ?_, decode_ofNotices (notices_coherent _ _) hfits _ _,
    forall₂_acceptedSegments_notices _ _⟩
  rwa [EncodedMessage.ofNotices, List.length_map]

/-- An empty literal is announced twice. Without a level to spare it cannot be recalled. -/
theorem reencode_decoded_repeated :
    encode { maxDepth := 0 } [] [.literal [], .literal []] ⟨1⟩ ⟨2⟩ = .error (.nestingTooDeep 0) ∧
      survivesReencoding
        ((Header.standard 2 ⟨1⟩ ⟨2⟩).toBytes ++ [2, 0, 0, 0, 2, 0, 0, 0]) = true := by
  have hdecode : ∀ depth, decode { maxDepth := depth }
      ((Header.standard 2 ⟨1⟩ ⟨2⟩).toBytes ++ [2, 0, 0, 0, 2, 0, 0, 0]) [] =
        .ok ⟨[.literal [], .literal []], [.literal [], .literal []], ⟨1⟩, ⟨2⟩⟩ := fun _ => rfl
  have distinct : CollisionFree (involved [] [.literal [], .literal []]) := by decide +kernel
  constructor
  · obtain ⟨-, hencode⟩ | ⟨hnot, -⟩ := reencode_decoded.1 (hdecode 0) distinct ⟨1⟩ ⟨2⟩
    · exact hencode
    · exact absurd ⟨1, .literal [], rfl, rfl, .inr (by simp)⟩ hnot
  · refine reencode_decoded.2 _ fun message hmessage => ?_
    rw [hdecode 64] at hmessage
    rw [← Except.ok.inj hmessage]
    exact distinct

end SegmentWire
