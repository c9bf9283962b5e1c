import Mathlib.Data.List.Basic
import SegmentWire.Segment.Basic

/-!
# Receipts

All that matters of a record once it is read: the segment that it stands for, and
whether it is marked as accepted.
-/
namespace SegmentWire

structure Receipt where
  accepted : Bool
  segment : Segment

lemma zipWith_receipts (received : List Receipt) :
    List.zipWith Receipt.mk (received.map Receipt.accepted) (received.map Receipt.segment) =
      received := by
  induction received with
  | nil => rfl
  | cons r received ih => rw [List.map_cons, List.map_cons, List.zipWith_cons_cons, ih]

lemma receipts_ext {received others : List Receipt}
    (haccepted : received.map Receipt.accepted = others.map Receipt.accepted)
    (hsegment : received.map Receipt.segment = others.map Receipt.segment) : received = others := by
  rw [← zipWith_receipts received, haccepted, hsegment, zipWith_receipts]

/-- The segments of the records that are marked as accepted, or of those that are not. -/
def marked (mark : Bool) (received : List Receipt) : List Segment :=
  (received.filter fun r => r.accepted == mark).map Receipt.segment

section Marked

variable {mark : Bool} {received later : List Receipt} {s : Segment}

@[simp] lemma marked_append :
    marked mark (received ++ later) = marked mark received ++ marked mark later := by
  simp [marked]

lemma marked_singleton (mark : Bool) (r : Receipt) :
    marked mark [r] = if r.accepted = mark then [r.segment] else [] := by
  by_cases h : r.accepted = mark <;> simp [marked, h]

lemma marked_cons (mark : Bool) (r : Receipt) (received : List Receipt) :
    marked mark (r :: received) =
      if r.accepted = mark then r.segment :: marked mark received else marked mark received := by
  by_cases h : r.accepted = mark <;> simp [marked, h]

lemma mem_marked : s ∈ marked mark received ↔ ⟨mark, s⟩ ∈ received := by
  simp only [marked, List.mem_map, List.mem_filter, beq_iff_eq]
  constructor
  · intro h
    obtain ⟨⟨accepted, t⟩, ⟨hr, rfl⟩, rfl⟩ := h
    exact hr
  · intro h
    exact ⟨_, ⟨h, rfl⟩, rfl⟩

lemma marked_subset (mark : Bool) (received : List Receipt) :
    marked mark received ⊆ received.map Receipt.segment := by
  intro s hs
  exact List.mem_map.mpr ⟨_, mem_marked.mp hs, rfl⟩

lemma mem_marked_or (h : s ∈ received.map Receipt.segment) :
    s ∈ marked true received ∨ s ∈ marked false received := by
  obtain ⟨⟨accepted, t⟩, hr, rfl⟩ := List.mem_map.mp h
  cases accepted
  · exact .inr (mem_marked.mpr hr)
  · exact .inl (mem_marked.mpr hr)

lemma length_marked (received : List Receipt) :
    (marked true received).length + (marked false received).length = received.length := by
  induction received with
  | nil => rfl
  | cons r received ih =>
    rw [marked_cons, marked_cons, List.length_cons]
    cases r.accepted <;> simp <;> omega

end Marked

end SegmentWire
