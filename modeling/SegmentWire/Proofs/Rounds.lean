import SegmentWire.Proofs.Encoding
import SegmentWire.Proofs.Headers
import SegmentWire.Sample

/-!
# One message or two

A list can be sent in one message, or its first part in one message and the rest in
another, to the receiver that has added what was sent. The sender of the second
message numbers the wrappers of the first like any other segment, where the sender
of a single message has only reserved their positions. This makes a difference only
if one of those wrappers is listed again, or lies below something listed. If none
does, the same records are sent either way.
-/
namespace SegmentWire

/-- None of the wrappers that are sent occurs among the segments or below them. -/
def WrappersApart (sent : List Notice) (segments : List Segment) : Prop :=
  ∀ n ∈ sent, n.content? = none → ∀ s ∈ segments, n.segment ∉ s :: s.properSubsegments

instance (sent : List Notice) (segments : List Segment) :
    Decidable (WrappersApart sent segments) :=
  inferInstanceAs (Decidable
    (∀ n ∈ sent, n.content? = none → ∀ s ∈ segments, n.segment ∉ s :: s.properSubsegments))

/-! ### The notices of the second part -/

section Notices

variable {cache segments : List Segment} {sent : List Notice} {t : Segment}

/-- A segment that no wrapper stands for is known to the receiver if it was cached or carried. -/
lemma mem_cache_sent_iff (h : ∀ n ∈ sent, n.content? = none → n.segment ≠ t) :
    t ∈ cache ++ sent.map Notice.segment ↔ t ∈ cache ++ contents sent := by
  rw [List.mem_append, List.mem_append]
  refine or_congr_right ⟨fun ht => ?_, fun ht => contents_subset sent ht⟩
  obtain ⟨n, hn, rfl⟩ := List.mem_map.mp ht
  cases hcontent : n.content? with
  | none => exact absurd rfl (h n hn hcontent)
  | some s =>
    rw [Notice.segment_of_content? hcontent]
    exact List.mem_filterMap.mpr ⟨n, hn, hcontent⟩

/-- Such a segment also has the same position for the receiver as for the sender. -/
lemma lastPosition?_cache_sent (h : ∀ n ∈ sent, n.content? = none → n.segment ≠ t) :
    lastPosition? t ((cache ++ sent.map Notice.segment).map some) =
      lastPosition? t (slots cache sent) := by
  have hsent : lastPosition? t ((sent.map Notice.segment).map some) =
      lastPosition? t (sent.map Notice.content?) := by
    refine lastPosition?_congr ?_
    rw [List.map_map, List.forall₂_map_left_iff, List.forall₂_map_right_iff, List.forall₂_same]
    intro n hn
    cases hcontent : n.content? with
    | none => simpa using h n hn hcontent
    | some s => simp [Notice.segment_of_content? hcontent]
  rw [slots, List.map_append, lastPosition?_append, lastPosition?_append, hsent]

namespace WrappersApart

lemma ne (h : WrappersApart sent segments) {s : Segment} (hs : s ∈ segments)
    (ht : t ∈ s :: s.properSubsegments) : ∀ n ∈ sent, n.content? = none → n.segment ≠ t := by
  rintro n hn hcontent rfl
  exact h n hn hcontent s hs ht

lemma notices_eq (h : WrappersApart sent segments) :
    notices (cache ++ sent.map Notice.segment) segments =
      notices (cache ++ contents sent) segments :=
  notices_congr fun _ hs _ ht => mem_cache_sent_iff (h.ne hs ht)

end WrappersApart

/-- A wrapper that is listed after it was sent is recalled like any segment that the receiver has,
by a wrapper around it. In a single message it is announced instead. -/
example :
    let s := Sample.literal 4 4
    let sent := notices [s] [s]
    notices ([s] ++ sent.map Notice.segment) [s.wrapper] = [.reminder s.wrapper] ∧
      notices ([s] ++ contents sent) [s.wrapper] = [.announcement s.wrapper] := by
  decide +kernel

/-- A child of what is sent is listed or lies below something listed. -/
lemma exists_listed_of_child {known : List Segment} {n : Notice} (hn : n ∈ notices known segments)
    (ht : t ∈ n.segment.children) : ∃ s ∈ segments, t ∈ s :: s.properSubsegments := by
  cases n with
  | introduction r =>
    obtain ⟨s, hs, -, hpath⟩ := introduced_of_mem hn
    have hbelow := Segment.properSubsegments_subset hpath.mem_properSubsegments
    exact ⟨s, hs, List.mem_cons_of_mem _ (hbelow (r.children_subset ht))⟩
  | announcement s =>
    exact ⟨s, mem_of_announcement_mem hn, List.mem_cons_of_mem _ (s.children_subset ht)⟩
  | reminder s =>
    obtain rfl : t = s := by simpa [Notice.segment] using ht
    obtain ⟨i, hs, -⟩ := reminder_mem_iff.mp hn
    exact ⟨t, List.mem_of_getElem? hs, List.mem_cons_self⟩

end Notices

/-! ### The records of the second part -/

lemma Segment.payload_congr {s : Segment} {f g : Segment → UInt16}
    (h : ∀ c ∈ s.children, f c = g c) : s.payload f = s.payload g := by
  cases s with
  | literal interfaces => rfl
  | composition segments => exact congrArg Payload.references (List.map_congr_left h)

/-- Records depend only on the positions of the children. -/
lemma recordsFrom_congr {slots others : List (Option Segment)} {sent : List Notice}
    (hlength : slots.length = others.length)
    (h : ∀ n ∈ sent, ∀ c ∈ n.segment.children, lastPosition? c slots = lastPosition? c others) :
    recordsFrom slots sent = recordsFrom others sent := by
  induction sent generalizing slots others with
  | nil => rfl
  | cons n sent ih =>
    obtain ⟨hn, hsent⟩ := List.forall_mem_cons.mp h
    have hrecord : n.record slots = n.record others := by
      have hpayload : n.segment.payload (position slots) = n.segment.payload (position others) :=
        Segment.payload_congr fun c hc => by rw [position, position, hn c hc]
      rw [Notice.record, hpayload, Notice.record]
    have hrest : recordsFrom (slots ++ [n.content?]) sent =
        recordsFrom (others ++ [n.content?]) sent := by
      refine ih (by simp [hlength]) fun m hm c hc => ?_
      rw [lastPosition?_concat, lastPosition?_concat, hlength, hsent m hm c hc]
    rw [recordsFrom, hrecord, hrest, recordsFrom]

lemma WrappersApart.recordsFrom_eq {cache segments : List Segment} {sent : List Notice}
    (h : WrappersApart sent segments) :
    recordsFrom (slots cache sent) (notices (cache ++ contents sent) segments) =
      recordsFrom ((cache ++ sent.map Notice.segment).map some)
        (notices (cache ++ sent.map Notice.segment) segments) := by
  rw [h.notices_eq]
  refine recordsFrom_congr (by simp [slots]) fun n hn c hc => ?_
  obtain ⟨s, hs, hlisted⟩ := exists_listed_of_child hn hc
  exact (lastPosition?_cache_sent (h.ne hs hlisted)).symm

/-! ### Two messages -/

lemma involved_subset_append (cache first second : List Segment) :
    involved cache first ⊆ involved cache (first ++ second) := by
  unfold involved
  rw [List.flatMap_append]
  refine List.append_subset.mpr ⟨List.subset_append_left _ _, ?_⟩
  refine List.subset_append_of_subset_right _ (List.append_subset.mpr ⟨?_, ?_⟩)
  · exact List.subset_append_of_subset_left _ (List.subset_append_left _ _)
  · exact List.subset_append_of_subset_right _ (List.subset_append_left _ _)

namespace EncodedMessage

variable (cache : List Segment) (sent : List Notice) (source destination : IsdAsn)

@[simp] lemma sent_ofNotices :
    (ofNotices cache sent source destination).sent = sent.map Notice.segment := rfl

lemma drop_bytes_ofNotices :
    (ofNotices cache sent source destination).bytes.drop 20 =
      (recordsFrom (cache.map some) sent).flatMap Record.toBytes :=
  List.drop_left' (Header.length_toBytes _)

lemma total_ofNotices :
    (Header.ofBytes (ofNotices cache sent source destination).bytes).total =
      UInt16.ofNat (cache.length + sent.length) :=
  Header.total_ofBytes_toBytes_append _ _

end EncodedMessage

/-- A list can be sent in one message exactly if its first part can be sent, and then the rest to
the receiver that has added what was sent. The single message has the records of the first message
followed by those of the second, and the header of the second counts as many segments. What is
assumed of the wrappers of the first message is needed only if there is such a message. -/
theorem encode_append {config : Config} {cache first second : List Segment}
    {source destination : IsdAsn} (distinct : CollisionFree (involved cache (first ++ second)))
    (hsent : ∀ one, encode config cache first source destination = .ok one →
      CollisionFree (involved (cache ++ one.sent) second) ∧
        WrappersApart (notices cache first) second) :
    ((∃ message, encode config cache (first ++ second) source destination = .ok message) ↔
      ∃ one two, encode config cache first source destination = .ok one ∧
        encode config (cache ++ one.sent) second source destination = .ok two) ∧
    ∀ message one two,
      encode config cache (first ++ second) source destination = .ok message →
      encode config cache first source destination = .ok one →
      encode config (cache ++ one.sent) second source destination = .ok two →
      message.sent = one.sent ++ two.sent ∧
      message.bytes.drop 20 = one.bytes.drop 20 ++ two.bytes.drop 20 ∧
      (Header.ofBytes message.bytes).total = (Header.ofBytes two.bytes).total := by
  have hfirst := encode_eq_ok_iff config (distinct.mono (involved_subset_append cache first second))
    source destination
  have hwhole := encode_eq_ok_iff config distinct source destination
  rw [notices_append] at hwhole
  constructor
  · constructor
    · rintro ⟨message, hmessage⟩
      obtain ⟨hfits, hfits'⟩ := fits_append_iff.mp ((hwhole message).mp hmessage).1
      have hone := (hfirst _).mpr ⟨hfits, rfl⟩
      obtain ⟨distinct', hapart⟩ := hsent _ hone
      rw [← hapart.notices_eq] at hfits'
      exact ⟨_, _, hone, (encode_eq_ok_iff config distinct' source destination _).mpr ⟨hfits', rfl⟩⟩
    · rintro ⟨one, two, hone, htwo⟩
      obtain ⟨distinct', hapart⟩ := hsent one hone
      obtain ⟨hfits, rfl⟩ := (hfirst one).mp hone
      obtain ⟨hfits', -⟩ := (encode_eq_ok_iff config distinct' source destination two).mp htwo
      rw [EncodedMessage.sent_ofNotices, hapart.notices_eq] at hfits'
      exact ⟨_, (hwhole _).mpr ⟨fits_append_iff.mpr ⟨hfits, hfits'⟩, rfl⟩⟩
  · intro message one two hmessage hone htwo
    obtain ⟨distinct', hapart⟩ := hsent one hone
    obtain ⟨-, rfl⟩ := (hfirst one).mp hone
    obtain ⟨-, rfl⟩ := (encode_eq_ok_iff config distinct' source destination two).mp htwo
    obtain ⟨-, rfl⟩ := (hwhole message).mp hmessage
    simp only [EncodedMessage.sent_ofNotices, EncodedMessage.drop_bytes_ofNotices,
      EncodedMessage.total_ofNotices]
    refine ⟨?_, ?_, ?_⟩
    · rw [hapart.notices_eq, List.map_append]
    · rw [recordsFrom_append, List.flatMap_append, ← hapart.recordsFrom_eq]
      rfl
    · rw [hapart.notices_eq, List.length_append, List.length_append, List.length_map,
        Nat.add_assoc]

/-- A literal that is cached is recalled, by a wrapper around it. The rest of the list has the
literal below it, but not the wrapper. -/
theorem encode_append_recalled :
    ∃ message one two : EncodedMessage,
      encode {} [Sample.literal 4 4]
        ([Sample.literal 4 4] ++ [.ofSegments [Sample.literal 4 4, Sample.literal 8 4]])
        ⟨1⟩ ⟨2⟩ = .ok message ∧
      encode {} [Sample.literal 4 4] [Sample.literal 4 4] ⟨1⟩ ⟨2⟩ = .ok one ∧
      (Sample.literal 4 4).wrapper ∈ one.sent ∧
      encode {} ([Sample.literal 4 4] ++ one.sent)
        [.ofSegments [Sample.literal 4 4, Sample.literal 8 4]] ⟨1⟩ ⟨2⟩ = .ok two ∧
      message.sent = one.sent ++ two.sent ∧
      message.bytes.drop 20 = one.bytes.drop 20 ++ two.bytes.drop 20 ∧
      (Header.ofBytes message.bytes).total = (Header.ofBytes two.bytes).total := by
  have hpool : CollisionFree [Sample.literal 4 4, Sample.literal 8 4,
      (Sample.literal 4 4).wrapper, .ofSegments [Sample.literal 4 4, Sample.literal 8 4]] := by
    decide +kernel
  have distinct : CollisionFree (involved [Sample.literal 4 4]
      ([Sample.literal 4 4] ++ [.ofSegments [Sample.literal 4 4, Sample.literal 8 4]])) :=
    hpool.mono (by decide +kernel)
  have hfirst : CollisionFree (involved [Sample.literal 4 4] [Sample.literal 4 4]) :=
    distinct.mono (involved_subset_append _ _ _)
  have hfits : Fits {} [Sample.literal 4 4] (notices [Sample.literal 4 4]
      ([Sample.literal 4 4] ++ [.ofSegments [Sample.literal 4 4, Sample.literal 8 4]])) := by
    decide +kernel
  have hmessage := (encode_eq_ok_iff {} distinct ⟨1⟩ ⟨2⟩ _).mpr ⟨hfits, rfl⟩
  have hone := (encode_eq_ok_iff {} hfirst ⟨1⟩ ⟨2⟩ _).mpr
    ⟨(fits_append_iff.mp (notices_append _ _ _ ▸ hfits)).1, rfl⟩
  have hsent : ∀ one, encode {} [Sample.literal 4 4] [Sample.literal 4 4] ⟨1⟩ ⟨2⟩ = .ok one →
      CollisionFree (involved ([Sample.literal 4 4] ++ one.sent)
        [.ofSegments [Sample.literal 4 4, Sample.literal 8 4]]) ∧
      WrappersApart (notices [Sample.literal 4 4] [Sample.literal 4 4])
        [.ofSegments [Sample.literal 4 4, Sample.literal 8 4]] := by
    intro one h
    obtain rfl := Except.ok.inj (hone.symm.trans h)
    exact ⟨hpool.mono (by decide +kernel), by decide +kernel⟩
  obtain ⟨hiff, hequal⟩ := encode_append distinct hsent
  obtain ⟨one, two, hone', htwo⟩ := hiff.mp ⟨_, hmessage⟩
  have hwrapper : (Sample.literal 4 4).wrapper ∈ one.sent := by
    obtain rfl := Except.ok.inj (hone.symm.trans hone')
    decide +kernel
  exact ⟨_, one, two, hmessage, hone', hwrapper, htwo, hequal _ _ _ hmessage hone' htwo⟩

end SegmentWire
