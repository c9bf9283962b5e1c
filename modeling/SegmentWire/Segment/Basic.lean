import SegmentWire.Fingerprint

/-!
# Path segments

A segment is a literal, which lists interfaces in hop order, or a composition,
which lists child segments in order. Children are often shared: a segment with n
nodes in memory can have 2^n paths from its root. Every node therefore carries
its fingerprint and its height from the moment it is built, and reading either
costs nothing.

Lists of children form a type of their own, so that both fields are defined by
recursion over the two types together. `toList` and `ofList` are inverse to each
other, and `Segment.induction` is the induction principle over ordinary lists.
-/
namespace SegmentWire

mutual

inductive Segment
  | literal (interfaces : List PathInterface)
  | composition (segments : SegmentList)
with
  /-- The content fingerprint: equal segments have equal fingerprints. -/
  @[computed_field] fingerprint : Segment → Fingerprint
    | .literal interfaces => .ofPreimage (Fingerprint.literalPreimage interfaces)
    | .composition segments => .ofPreimage (Fingerprint.compositionPreimage segments.fingerprints)
  /-- Nesting depth: zero for a literal or an empty composition, else one more than the
  height of the tallest child. -/
  @[computed_field] height : Segment → Nat
    | .literal _ => 0
    | .composition segments => segments.levels

inductive SegmentList
  | nil
  | cons (head : Segment) (tail : SegmentList)
with
  @[computed_field] fingerprints : SegmentList → List Fingerprint
    | .nil => []
    | .cons head tail => head.fingerprint :: tail.fingerprints
  /-- Levels of a composition over the list. -/
  @[computed_field] levels : SegmentList → Nat
    | .nil => 0
    | .cons head tail => max (head.height + 1) tail.levels

end

namespace SegmentList

def toList : SegmentList → List Segment
  | .nil => []
  | .cons head tail => head :: tail.toList

def ofList (segments : List Segment) : SegmentList :=
  segments.foldr .cons .nil

@[simp] theorem toList_nil : nil.toList = [] := rfl

@[simp] theorem toList_cons (head : Segment) (tail : SegmentList) :
    (cons head tail).toList = head :: tail.toList := rfl

@[simp] theorem ofList_nil : ofList [] = nil := rfl

@[simp] theorem ofList_cons (s : Segment) (segments : List Segment) :
    ofList (s :: segments) = cons s (ofList segments) := rfl

@[simp] theorem toList_ofList (segments : List Segment) : (ofList segments).toList = segments := by
  induction segments with
  | nil => rfl
  | cons s segments ih => simp [ih]

@[simp] theorem ofList_toList : ∀ segments : SegmentList, ofList segments.toList = segments
  | .nil => rfl
  | .cons head tail => by simp [ofList_toList tail]

theorem fingerprints_eq_map : ∀ segments : SegmentList,
    segments.fingerprints = segments.toList.map Segment.fingerprint
  | .nil => rfl
  | .cons head tail => by simp [fingerprints, fingerprints_eq_map tail]

end SegmentList

/-- The two kinds of segment. -/
inductive SegmentKind
  | literal
  | composition
  deriving DecidableEq, Repr

def SegmentKind.name : SegmentKind → String
  | .literal => "literal"
  | .composition => "composition"

namespace Segment

def ofSegments (segments : List Segment) : Segment :=
  .composition (SegmentList.ofList segments)

/-- The one-child composition over a segment. -/
def wrapper (s : Segment) : Segment :=
  .composition (.cons s .nil)

def kind : Segment → SegmentKind
  | .literal _ => .literal
  | .composition _ => .composition

/-- The child list, empty for a literal. -/
def childList : Segment → SegmentList
  | .literal _ => .nil
  | .composition segments => segments

def children (s : Segment) : List Segment :=
  s.childList.toList

/-- The number of interfaces or of children. -/
def length : Segment → Nat
  | .literal interfaces => interfaces.length
  | .composition segments => segments.fingerprints.length

theorem length_eq_children {segments : SegmentList} :
    (composition segments).length = (composition segments).children.length := by
  simp [length, children, childList, SegmentList.fingerprints_eq_map]

end Segment

mutual

/-- The proper subsegments in post-order, with each child after its own subsegments. A shared
child stands in the list once for each occurrence. -/
def Segment.properSubsegments : Segment → List Segment
  | .literal _ => []
  | .composition segments => segments.subsegments

/-- The segments of a list, each after its own proper subsegments. -/
def SegmentList.subsegments : SegmentList → List Segment
  | .nil => []
  | .cons head tail => head.properSubsegments ++ head :: tail.subsegments

end

mutual

/-- Equality of segments by structure, where shared parts are equal at once. -/
def Segment.decEq (a b : Segment) : Decidable (a = b) :=
  withPtrEqDecEq a b fun _ =>
    match a, b with
    | .literal xs, .literal ys =>
      if hxs : xs = ys then .isTrue (by rw [hxs]) else .isFalse (by simpa using hxs)
    | .composition xs, .composition ys =>
      match SegmentList.decEq xs ys with
      | .isTrue hxs => .isTrue (by rw [hxs])
      | .isFalse hxs => .isFalse (by simpa using hxs)
    | .literal _, .composition _ => .isFalse (by simp)
    | .composition _, .literal _ => .isFalse (by simp)

def SegmentList.decEq (xs ys : SegmentList) : Decidable (xs = ys) :=
  match xs, ys with
  | .nil, .nil => .isTrue rfl
  | .cons a xs, .cons b ys =>
    match Segment.decEq a b with
    | .isTrue hab =>
      match SegmentList.decEq xs ys with
      | .isTrue hxs => .isTrue (by rw [hab, hxs])
      | .isFalse hxs => .isFalse (by simp [hxs])
    | .isFalse hab => .isFalse (by simp [hab])
  | .nil, .cons _ _ => .isFalse (by simp)
  | .cons _ _, .nil => .isFalse (by simp)

end

/-- Segments with different fingerprints are not compared further. -/
instance : DecidableEq Segment := fun a b =>
  if h : a.fingerprint = b.fingerprint then Segment.decEq a b
  else .isFalse fun hab => h (by rw [hab])

instance : DecidableEq SegmentList := SegmentList.decEq

namespace Segment

/-- Induction over segments, with the children of a composition as an ordinary list. -/
theorem induction {motive : Segment → Prop}
    (literal : ∀ interfaces, motive (.literal interfaces))
    (composition : ∀ segments : SegmentList, (∀ c ∈ segments.toList, motive c) →
      motive (.composition segments)) (s : Segment) : motive s :=
  @Segment.rec motive (fun segments => ∀ c ∈ segments.toList, motive c)
    literal composition (by simp)
    (fun head tail hhead htail c hc => by
      obtain rfl | hc := List.mem_cons.mp hc
      · exact hhead
      · exact htail c hc) s

end Segment

end SegmentWire
