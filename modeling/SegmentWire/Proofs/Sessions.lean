import SegmentWire.Proofs.RoundTrip
import SegmentWire.Session

/-!
# Sessions in agreement

A round either changes nothing or extends both caches by what was sent. The caches
hold what was exchanged so far, and as long as no two such segments collide each
round is a round trip.
-/
namespace SegmentWire

/-- What a message about a segment can consist of: the segment, its wrapper and its proper
subsegments. -/
def Segment.family (s : Segment) : List Segment :=
  s :: s.wrapper :: s.properSubsegments

lemma sent_subset_family (known segments : List Segment) :
    (notices known segments).map Notice.segment ⊆ segments.flatMap Segment.family := by
  intro t ht
  obtain ⟨n, hn, rfl⟩ := List.mem_map.mp ht
  rw [List.mem_flatMap]
  cases n with
  | introduction s =>
    obtain ⟨r, hr, -, hpath⟩ := introduced_of_mem hn
    refine ⟨r, hr, ?_⟩
    simp [Segment.family, Notice.segment, hpath.mem_properSubsegments]
  | announcement s =>
    exact ⟨s, mem_of_announcement_mem hn, by simp [Segment.family, Notice.segment]⟩
  | reminder s =>
    obtain ⟨i, hs, -⟩ := reminder_mem_iff.mp hn
    exact ⟨s, List.mem_of_getElem? hs, by simp [Segment.family, Notice.segment]⟩

lemma involved_subset_family (cache segments : List Segment) :
    involved cache segments ⊆ cache ++ segments.flatMap Segment.family := by
  intro t ht
  simp only [involved, List.mem_append, List.mem_flatMap] at ht ⊢
  obtain ht | ht | ⟨s, hs, ht⟩ := ht
  · exact .inl ht
  · exact .inr ⟨t, ht, by simp [Segment.family]⟩
  · exact .inr ⟨s, hs, by simp [Segment.family, ht]⟩

namespace Session

/-- The session after a round for each batch. A round that fails is left out. -/
def after (session : Session) : List (List Segment) → Session
  | [] => session
  | batch :: batches => (session.round batch).2.after batches

/-- The segments that the rounds exchange, with their subsegments and wrappers: those of the batches
that can be encoded. -/
def exchanged (session : Session) : List (List Segment) → List Segment
  | [] => []
  | batch :: batches =>
    (if (session.encode batch).isOk then batch.flatMap Segment.family else []) ++
      (session.round batch).2.exchanged batches

lemma exchanged_cons (session : Session) (batch : List Segment) (batches : List (List Segment)) :
    session.exchanged (batch :: batches) =
      session.exchanged [batch] ++ (session.round batch).2.exchanged batches := by
  simp [exchanged]

lemma exchanged_append (session : Session) (batches later : List (List Segment)) :
    session.exchanged (batches ++ later) =
      session.exchanged batches ++ (session.after batches).exchanged later := by
  induction batches generalizing session with
  | nil => rfl
  | cons batch batches ih =>
    rw [List.cons_append, exchanged, ih, exchanged, after, List.append_assoc]

lemma exchanged_of_ok {session : Session} {batch : List Segment}
    (h : (session.encode batch).isOk) :
    session.exchanged [batch] = batch.flatMap Segment.family := by
  simp [exchanged, h]

/-- Both sides append the segments of a round. -/
def extend (session : Session) (sent : List Segment) : Session :=
  { session with
    senderView := session.senderView ++ sent
    receiverCache := session.receiverCache ++ sent
    rounds := session.rounds + 1 }

@[simp] lemma agree_self (segments : List Segment) : agree segments segments = true := by
  simp [agree]

lemma verify_of_eq {session : Session} (h : session.senderView = session.receiverCache) :
    session.verify = .ok () := by
  rw [verify, h, agree_self, if_pos rfl]

/-- A round with equal caches fails in encoding and changes nothing, or it exchanges the notices of
the batch. -/
theorem round_cases {session : Session} {batch : List Segment}
    (hagree : session.senderView = session.receiverCache)
    (distinct : (session.encode batch).isOk → CollisionFree (involved session.senderView batch)) :
    (∃ cause, session.encode batch = .error cause ∧
      session.round batch = (.error (.encoding cause), session)) ∨
    ((session.encode batch).isOk ∧
      session.round batch =
        (.ok (.ofNotices (notices session.senderView batch) session.source session.destination),
          session.extend ((notices session.senderView batch).map Notice.segment))) := by
  cases hencode : session.encode batch with
  | error cause => exact .inl ⟨cause, rfl, by rw [round, hencode]⟩
  | ok encoded =>
    have hdistinct := distinct (by rw [hencode]; rfl)
    obtain ⟨hfits, rfl⟩ := (encode_eq_ok_iff _ hdistinct _ _ _).mp hencode
    have hdeliver := decode_ofNotices (notices_coherent session.senderView batch) hfits
      session.source session.destination
    rw [hagree, ← deliver, ← hagree] at hdeliver
    refine .inr ⟨rfl, ?_⟩
    rw [round, hencode]
    simp only [hdeliver]
    simp [DecodedMessage.ofNotices, EncodedMessage.ofNotices, extend]

/-- The caches are equal and hold nothing but segments of the given list. -/
structure Agreed (session : Session) (seen : List Segment) : Prop where
  caches_eq : session.senderView = session.receiverCache
  subset : session.senderView ⊆ seen

namespace Agreed

variable {session : Session} {seen : List Segment}

lemma start (source destination : IsdAsn) : (start source destination).Agreed [] :=
  ⟨rfl, List.Subset.refl _⟩

/-- What one round has to tell apart. -/
lemma distinct_involved (h : session.Agreed seen) {batch : List Segment}
    (distinct : CollisionFree (seen ++ session.exchanged [batch]))
    (hencode : (session.encode batch).isOk) :
    CollisionFree (involved session.senderView batch) := by
  refine distinct.mono (List.Subset.trans (involved_subset_family _ _) ?_)
  rw [exchanged_of_ok hencode]
  exact List.append_subset.mpr
    ⟨List.subset_append_of_subset_left _ h.subset, List.subset_append_right _ _⟩

lemma round (h : session.Agreed seen) {batch : List Segment}
    (distinct : CollisionFree (seen ++ session.exchanged [batch])) :
    (session.round batch).2.Agreed (seen ++ session.exchanged [batch]) := by
  obtain ⟨cause, -, hround⟩ | ⟨hencode, hround⟩ :=
    round_cases h.caches_eq (h.distinct_involved distinct)
  · rw [hround]
    exact ⟨h.caches_eq, List.subset_append_of_subset_left _ h.subset⟩
  · rw [hround]
    refine ⟨by simp [extend, h.caches_eq], ?_⟩
    rw [exchanged_of_ok hencode]
    exact List.append_subset.mpr ⟨List.subset_append_of_subset_left _ h.subset,
      List.subset_append_of_subset_right _ (sent_subset_family _ _)⟩

/-- Agreement lasts over any number of rounds. -/
theorem after (h : session.Agreed seen) {batches : List (List Segment)}
    (distinct : CollisionFree (seen ++ session.exchanged batches)) :
    (session.after batches).Agreed (seen ++ session.exchanged batches) := by
  induction batches generalizing session seen with
  | nil => simpa [exchanged, Session.after] using h
  | cons batch batches ih =>
    rw [exchanged_cons, ← List.append_assoc] at distinct ⊢
    exact ih (h.round (distinct.mono (List.subset_append_left _ _))) distinct

end Agreed

/-- In every session without collisions the caches stay equal, a round fails only in encoding and
then changes nothing, and a round that succeeds accepts one segment for each listed one. -/
theorem agreement (source destination : IsdAsn) (batches : List (List Segment))
    (batch : List Segment)
    (distinct : CollisionFree ((start source destination).exchanged (batches ++ [batch]))) :
    let session := (start source destination).after batches
    let next := (session.round batch).2
    session.senderView = session.receiverCache ∧ session.verify = .ok () ∧
      next.senderView = next.receiverCache ∧ next.verify = .ok () ∧
      (∀ fault, session.send batch = .error fault → next = session ∧
        ∃ cause, fault = .encoding cause ∧ session.encode batch = .error cause) ∧
      (∀ decoded last, session.send batch = .ok (decoded, last) → last = next ∧
        next.rounds = session.rounds + 1 ∧ decoded.acceptedSegments.length = batch.length) := by
  intro session next
  rw [exchanged_append] at distinct
  have hagreed : session.Agreed ((start source destination).exchanged batches) :=
    (Agreed.start source destination).after (distinct.mono (List.subset_append_left _ _))
  have hnext : next.Agreed _ := hagreed.round distinct
  refine ⟨hagreed.caches_eq, verify_of_eq hagreed.caches_eq, hnext.caches_eq,
    verify_of_eq hnext.caches_eq, ?_⟩
  obtain ⟨cause, hencode, hround⟩ | ⟨-, hround⟩ :=
    round_cases hagreed.caches_eq (hagreed.distinct_involved distinct)
  · have hunchanged : next = session := congrArg Prod.snd hround
    rw [send, hround]
    constructor
    · intro fault hfault
      cases hfault
      exact ⟨hunchanged, cause, rfl, hencode⟩
    · intro decoded last hsent
      cases hsent
  · have hextended : next = session.extend _ := congrArg Prod.snd hround
    rw [send, hround, hextended]
    constructor
    · intro fault hfault
      cases hfault
    · intro decoded last hsent
      cases hsent
      exact ⟨rfl, rfl, length_acceptedSegments_notices _ _⟩

/-- A tree is announced in one round and recalled in the next, over a cache that holds it. -/
theorem agreement_twice :
    (((start ⟨1⟩ ⟨2⟩).after [[Sample.tree 1 2]]).round [Sample.tree 1 2]).1.isOk ∧
      (((start ⟨1⟩ ⟨2⟩).after [[Sample.tree 1 2]]).round [Sample.tree 1 2]).2.verify = .ok () := by
  have distinct : CollisionFree ((start ⟨1⟩ ⟨2⟩).exchanged
      ([[Sample.tree 1 2]] ++ [[Sample.tree 1 2]])) := by
    decide +kernel
  obtain ⟨-, -, -, hverify, -⟩ := agreement ⟨1⟩ ⟨2⟩ [[Sample.tree 1 2]] [Sample.tree 1 2] distinct
  exact ⟨by decide +kernel, hverify⟩

end Session

end SegmentWire
