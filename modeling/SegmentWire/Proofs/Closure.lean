import SegmentWire.Proofs.Receiving
import SegmentWire.Proofs.Sessions

/-!
# Closed caches

A cache is closed if it holds all that lies below what it holds. Every record of a
message stands for a segment over children that are cached or come before it, so
receiving a message keeps a cache closed. A session starts with empty caches and
reaches only closed ones.
-/
namespace SegmentWire

/-- Every proper subsegment of a known segment is known. -/
def Closed (known : List Segment) : Prop :=
  ∀ s ∈ known, ∀ t ∈ s.properSubsegments, t ∈ known

instance (known : List Segment) : Decidable (Closed known) :=
  inferInstanceAs (Decidable (∀ s ∈ known, ∀ t ∈ s.properSubsegments, t ∈ known))

lemma closed_nil : Closed [] :=
  List.forall_mem_nil _

/-- It is enough that the children of each segment are known. -/
lemma closed_iff_children {known : List Segment} :
    Closed known ↔ ∀ s ∈ known, s.children ⊆ known := by
  constructor
  · exact fun h s hs c hc => h s hs c (s.children_subset hc)
  · intro h s hs t ht
    induction s using Segment.induction with
    | literal interfaces => simp [Segment.properSubsegments] at ht
    | composition segments ih =>
      obtain ⟨c, hc, ht⟩ := Segment.mem_properSubsegments.mp ht
      have hknown : c ∈ known := h _ hs hc
      obtain ht | rfl := ht
      · exact ih c hc hknown ht
      · exact hknown

namespace Closed

variable {known segments : List Segment}

lemma append (h : Closed known) (hchildren : ∀ s ∈ segments, s.children ⊆ known ++ segments) :
    Closed (known ++ segments) := by
  refine closed_iff_children.mpr (List.forall_mem_append.mpr ⟨fun s hs => ?_, hchildren⟩)
  exact List.subset_append_of_subset_left _ (closed_iff_children.mp h s hs)

lemma append_orderly (h : Closed known) (horder : Orderly known segments) :
    Closed (known ++ segments) :=
  h.append fun _ hs _ hc => horder.children_subset hs hc

/-- What a receiver adds to a closed cache leaves it closed, whatever bytes it is sent. -/
theorem decode {config : Config} {cache : List Segment} {bs : Bytes} {message : DecodedMessage}
    (h : Closed cache) (hdecode : decode config bs cache = .ok message) :
    Closed (cache ++ message.newSegments) := by
  obtain ⟨received, hreceived, hnew, -⟩ := decode_receivable hdecode
  rw [hnew]
  exact h.append fun s hs => (hreceived.spec hs).2.2

end Closed

namespace Session

/-- A round leaves the receiver's cache alone or appends what was decoded. -/
lemma receiverCache_round (session : Session) (batch : List Segment) :
    (session.round batch).2.receiverCache = session.receiverCache ∨
      ∃ bs decoded, session.deliver bs = .ok decoded ∧
        (session.round batch).2.receiverCache = session.receiverCache ++ decoded.newSegments := by
  rw [round]
  cases session.encode batch with
  | error cause => exact .inl rfl
  | ok encoded =>
    cases hdeliver : session.deliver encoded.bytes with
    | error cause => exact .inl (by simp only [hdeliver])
    | ok decoded =>
      simp only [hdeliver]
      split_ifs
      · exact .inl rfl
      · exact .inl rfl
      · exact .inr ⟨_, _, hdeliver, rfl⟩

lemma closed_round {session : Session} (h : Closed session.receiverCache) (batch : List Segment) :
    Closed (session.round batch).2.receiverCache := by
  obtain hsame | ⟨bs, decoded, hdeliver, hextended⟩ := session.receiverCache_round batch
  · rwa [hsame]
  · rw [hextended]
    exact h.decode hdeliver

/-- The receiver's cache stays closed, even if segments collide. -/
theorem closed_after {session : Session} (h : Closed session.receiverCache)
    (batches : List (List Segment)) : Closed (session.after batches).receiverCache := by
  induction batches generalizing session with
  | nil => exact h
  | cons batch batches ih => exact ih (closed_round h batch)

end Session

end SegmentWire
