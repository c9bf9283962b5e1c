import Mathlib.Data.List.Forall2
import Mathlib.Logic.Function.Basic
import SegmentWire.Proofs.Interfaces
import SegmentWire.Proofs.Subsegments

/-!
# Collisions

A fingerprint is the digest of a preimage. The preimage of a segment tells its kind
by the tag and its entries by the bytes after the count; the count, which wraps
around at 2^32, is not needed for that. If two different segments share a
fingerprint, then either their preimages differ, or they are compositions over
children of which some pair is different and shares a fingerprint again. By
induction the digest itself collides at some pair of nodes.
-/
namespace SegmentWire

section FixedLength

variable {α β : Type} {f : α → List β} {n : Nat}

/-- Blocks of one length can be told apart when they are put one after the other. -/
lemma flatMap_injective (hinj : Function.Injective f) (hlength : ∀ a, (f a).length = n)
    (hpos : 0 < n) : Function.Injective fun xs : List α => xs.flatMap f := by
  have hne : ∀ (a : α) (as : List α), (a :: as).flatMap f ≠ [] := by
    intro a as hnil
    have hzero := congrArg List.length hnil
    rw [List.flatMap_cons, List.length_append, hlength, List.length_nil] at hzero
    omega
  intro xs
  induction xs with
  | nil =>
    intro ys h
    cases ys with
    | nil => rfl
    | cons y ys => exact absurd h.symm (hne y ys)
  | cons x xs ih =>
    intro ys h
    cases ys with
    | nil => exact absurd h (hne x xs)
    | cons y ys =>
      simp only [List.flatMap_cons] at h
      obtain ⟨hhead, htail⟩ := List.append_inj h ((hlength x).trans (hlength y).symm)
      rw [hinj hhead, ih htail]

/-- Lists with the same image are equal, or have different elements with the same image. -/
lemma eq_or_exists_ne_of_map_eq {g : α → β} {xs ys : List α} (h : xs.map g = ys.map g) :
    xs = ys ∨ ∃ x ∈ xs, ∃ y ∈ ys, x ≠ y ∧ g x = g y := by
  induction xs generalizing ys with
  | nil =>
    left
    exact (List.map_eq_nil_iff.mp h.symm).symm
  | cons x xs ih =>
    obtain ⟨y, ys, rfl, hhead, htail⟩ := List.map_eq_cons_iff.mp h.symm
    by_cases hxy : x = y
    · obtain hxs | ⟨s, hs, t, ht, hne, heq⟩ := ih htail.symm
      · left
        rw [hxy, hxs]
      · right
        exact ⟨s, List.mem_cons_of_mem _ hs, t, List.mem_cons_of_mem _ ht, hne, heq⟩
    · right
      exact ⟨x, List.mem_cons_self, y, List.mem_cons_self, hxy, hhead.symm⟩

end FixedLength

/-! ### Preimages -/

namespace Fingerprint

lemma bytes_injective : Function.Injective bytes := fun _ _ h => ext h

lemma literalPreimage_injective : Function.Injective literalPreimage := by
  intro hops others h
  have hbytes : Function.Injective PathInterface.toBytes :=
    Function.LeftInverse.injective PathInterface.ofBytes_toBytes
  -- The counts have four bytes each, whatever the lengths are.
  obtain ⟨-, hentries⟩ := List.append_inj h (by simp)
  exact flatMap_injective hbytes PathInterface.length_toBytes (by decide) hentries

lemma compositionPreimage_injective : Function.Injective compositionPreimage := by
  intro fs gs h
  obtain ⟨-, hentries⟩ := List.append_inj h (by simp)
  exact flatMap_injective bytes_injective length_bytes (by decide) hentries

lemma literalPreimage_ne_compositionPreimage (hops : List PathInterface) (fs : List Fingerprint) :
    literalPreimage hops ≠ compositionPreimage fs := by
  intro h
  have htag : (0x4c : UInt8) = 0x43 := (List.cons.inj h).1
  exact absurd htag (by decide)

end Fingerprint

namespace Segment

/-- What the fingerprint of a segment covers: the tag of its kind, the 32-bit count, and the wire
form of its interfaces or the fingerprints of its children. -/
def preimage : Segment → Bytes
  | .literal interfaces => Fingerprint.literalPreimage interfaces
  | .composition segments => Fingerprint.compositionPreimage segments.fingerprints

lemma fingerprint_eq (s : Segment) : s.fingerprint = .ofPreimage s.preimage := by
  cases s <;> rfl

lemma digest_preimage_eq {a b : Segment} (h : a.fingerprint = b.fingerprint) :
    Sha256.digest a.preimage = Sha256.digest b.preimage := by
  rw [fingerprint_eq, fingerprint_eq] at h
  exact congrArg Fingerprint.bytes h

/-- Two segments with one preimage are equal, or have different children that share a
fingerprint. -/
lemma eq_or_children_of_preimage_eq {a b : Segment} (h : a.preimage = b.preimage) :
    a = b ∨ ∃ c ∈ a.children, ∃ d ∈ b.children, c ≠ d ∧ c.fingerprint = d.fingerprint := by
  cases a with
  | literal hops =>
    cases b with
    | literal others =>
      left
      rw [Fingerprint.literalPreimage_injective h]
    | composition segments =>
      exact absurd h (Fingerprint.literalPreimage_ne_compositionPreimage hops _)
  | composition segments =>
    cases b with
    | literal hops =>
      exact absurd h.symm (Fingerprint.literalPreimage_ne_compositionPreimage hops _)
    | composition others =>
      have hfingerprints := Fingerprint.compositionPreimage_injective h
      rw [SegmentList.fingerprints_eq_map, SegmentList.fingerprints_eq_map] at hfingerprints
      obtain hsegments | hchildren := eq_or_exists_ne_of_map_eq hfingerprints
      · left
        rw [← segments.ofList_toList, hsegments, others.ofList_toList]
      · exact .inr hchildren

/-- Two nodes, one in each segment, whose preimages are different but have the same digest. -/
def DigestCollision (a b : Segment) : Prop :=
  ∃ s ∈ a :: a.properSubsegments, ∃ t ∈ b :: b.properSubsegments,
    s.preimage ≠ t.preimage ∧ Sha256.digest s.preimage = Sha256.digest t.preimage

lemma nodes_child_subset {s c : Segment} (hc : c ∈ s.children) :
    c :: c.properSubsegments ⊆ s :: s.properSubsegments :=
  List.cons_subset.mpr ⟨List.mem_cons_of_mem _ (s.children_subset hc),
    List.subset_cons_of_subset _ (properSubsegments_child_subset hc)⟩

/-- A collision between children is one between their parents. -/
lemma DigestCollision.of_children {a b c d : Segment} (hc : c ∈ a.children) (hd : d ∈ b.children)
    (h : DigestCollision c d) : DigestCollision a b := by
  obtain ⟨s, hs, t, ht, hcollision⟩ := h
  exact ⟨s, nodes_child_subset hc hs, t, nodes_child_subset hd ht, hcollision⟩

/-- Induction that treats both kinds of segment alike: a literal has no children. -/
lemma induction_children {motive : Segment → Prop}
    (step : ∀ s : Segment, (∀ c ∈ s.children, motive c) → motive s) (s : Segment) : motive s := by
  induction s using Segment.induction with
  | literal hops => exact step _ (by simp)
  | composition segments ih => exact step _ ih

/-- The preimages of the two segments collide, or else those below a pair of their children do. -/
theorem digestCollision_of_fingerprint_eq {a b : Segment} (hne : a ≠ b)
    (h : a.fingerprint = b.fingerprint) : DigestCollision a b := by
  induction a using induction_children generalizing b with
  | step a ih =>
    by_cases hpreimage : a.preimage = b.preimage
    · obtain heq | ⟨c, hc, d, hd, hdiffer, hshared⟩ := eq_or_children_of_preimage_eq hpreimage
      · exact absurd heq hne
      · exact .of_children hc hd (ih c hc hdiffer hshared)
    · exact ⟨a, List.mem_cons_self, b, List.mem_cons_self, hpreimage, digest_preimage_eq h⟩

end Segment

/-- Segments have collisions only where the digest has: two segments are equal, or their
fingerprints differ, or two of their nodes have different preimages with one digest. -/
theorem fingerprint_collision (a b : Segment) :
    a = b ∨ a.fingerprint ≠ b.fingerprint ∨
      ∃ s ∈ a :: a.properSubsegments, ∃ t ∈ b :: b.properSubsegments,
        s.preimage ≠ t.preimage ∧ Sha256.digest s.preimage = Sha256.digest t.preimage := by
  by_cases heq : a = b
  · exact .inl heq
  · by_cases hshared : a.fingerprint = b.fingerprint
    · exact .inr (.inr (Segment.digestCollision_of_fingerprint_eq heq hshared))
    · exact .inr (.inl hshared)

end SegmentWire
