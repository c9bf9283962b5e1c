import Mathlib.Data.List.Basic
import SegmentWire.Segment.Basic

/-!
# Subsegments

The proper subsegments of a segment are its children and their proper
subsegments. Height falls strictly from a segment to each of them, so that no
segment lies below itself. Segments are told apart by fingerprint: a list is
free of collisions when that is the same as telling them apart by structure.
-/
namespace SegmentWire

/-- No two different segments of the list share a fingerprint. -/
def CollisionFree (segments : List Segment) : Prop :=
  ∀ a ∈ segments, ∀ b ∈ segments, a.fingerprint = b.fingerprint → a = b

instance (segments : List Segment) : Decidable (CollisionFree segments) :=
  inferInstanceAs (Decidable
    (∀ a ∈ segments, ∀ b ∈ segments, a.fingerprint = b.fingerprint → a = b))

lemma CollisionFree.mono {segments others : List Segment} (h : CollisionFree others)
    (hsub : segments ⊆ others) : CollisionFree segments :=
  fun a ha b hb => h a (hsub ha) b (hsub hb)

namespace SegmentList

lemma levels_cons (head : Segment) (tail : SegmentList) :
    (cons head tail).levels = max (head.height + 1) tail.levels := rfl

lemma subsegments_cons_subset {head : Segment} {tail : SegmentList} {segments : List Segment} :
    (cons head tail).subsegments ⊆ segments ↔
      head.properSubsegments ⊆ segments ∧ head ∈ segments ∧ tail.subsegments ⊆ segments := by
  rw [subsegments, List.append_subset, List.cons_subset]

lemma mem_subsegments (segments : SegmentList) (t : Segment) :
    t ∈ segments.subsegments ↔ ∃ c ∈ segments.toList, t ∈ c.properSubsegments ∨ t = c := by
  match segments with
  | .nil => simp [subsegments]
  | .cons head tail =>
    simp only [subsegments, List.mem_append, List.mem_cons, mem_subsegments tail t, toList_cons,
      or_and_right, exists_or, exists_eq_left, or_assoc]

lemma height_lt_levels (segments : SegmentList) (c : Segment) (hc : c ∈ segments.toList) :
    c.height < segments.levels := by
  match segments with
  | .nil => simp at hc
  | .cons head tail =>
    have hlevels := levels_cons head tail
    obtain rfl | hc := List.mem_cons.mp hc
    · omega
    · have htail := height_lt_levels tail c hc
      omega

end SegmentList

namespace Segment

@[simp] lemma children_literal (interfaces : List PathInterface) :
    (literal interfaces).children = [] := rfl

@[simp] lemma children_composition (segments : SegmentList) :
    (composition segments).children = segments.toList := rfl

@[simp] lemma children_ofSegments (segments : List Segment) :
    (ofSegments segments).children = segments := by
  simp [ofSegments]

@[simp] lemma children_wrapper (s : Segment) : s.wrapper.children = [s] := rfl

@[simp] lemma length_literal (interfaces : List PathInterface) :
    (literal interfaces).length = interfaces.length := rfl

@[simp] lemma length_composition (segments : SegmentList) :
    (composition segments).length = segments.toList.length :=
  length_eq_children

@[simp] lemma length_wrapper (s : Segment) : s.wrapper.length = 1 := rfl

@[simp] lemma height_literal (interfaces : List PathInterface) : (literal interfaces).height = 0 :=
  rfl

@[simp] lemma height_composition (segments : SegmentList) :
    (composition segments).height = segments.levels := rfl

@[simp] lemma height_wrapper (s : Segment) : s.wrapper.height = s.height + 1 :=
  Nat.max_eq_left (Nat.zero_le _)

lemma height_child_lt {s c : Segment} (hc : c ∈ s.children) : c.height < s.height := by
  cases s with
  | literal interfaces => simp at hc
  | composition segments => exact segments.height_lt_levels c hc

lemma mem_properSubsegments {s t : Segment} :
    t ∈ s.properSubsegments ↔ ∃ c ∈ s.children, t ∈ c.properSubsegments ∨ t = c := by
  cases s with
  | literal interfaces => simp [properSubsegments]
  | composition segments => exact segments.mem_subsegments t

lemma children_subset (s : Segment) : s.children ⊆ s.properSubsegments :=
  fun c hc => mem_properSubsegments.mpr ⟨c, hc, .inr rfl⟩

lemma properSubsegments_child_subset {s c : Segment} (hc : c ∈ s.children) :
    c.properSubsegments ⊆ s.properSubsegments :=
  fun _ ht => mem_properSubsegments.mpr ⟨c, hc, .inl ht⟩

lemma height_lt_of_mem {s t : Segment} (ht : t ∈ s.properSubsegments) : t.height < s.height := by
  induction s using Segment.induction with
  | literal interfaces => simp [properSubsegments] at ht
  | composition segments ih =>
    obtain ⟨c, hc, ht⟩ := mem_properSubsegments.mp ht
    have hlt : c.height < (composition segments).height := height_child_lt hc
    obtain ht | rfl := ht
    · exact Nat.lt_trans (ih c hc ht) hlt
    · exact hlt

/-- Subsegments of subsegments are subsegments. -/
lemma properSubsegments_subset {s t : Segment} (ht : t ∈ s.properSubsegments) :
    t.properSubsegments ⊆ s.properSubsegments := by
  induction s using Segment.induction with
  | literal interfaces => simp [properSubsegments] at ht
  | composition segments ih =>
    obtain ⟨c, hc, ht⟩ := mem_properSubsegments.mp ht
    have hsub : c.properSubsegments ⊆ (composition segments).properSubsegments :=
      properSubsegments_child_subset hc
    obtain ht | rfl := ht
    · exact List.Subset.trans (ih c hc ht) hsub
    · exact hsub

lemma ne_of_mem_children {s c : Segment} (hc : c ∈ s.children) : c ≠ s := by
  rintro rfl
  exact Nat.lt_irrefl _ (height_child_lt hc)

end Segment

end SegmentWire
