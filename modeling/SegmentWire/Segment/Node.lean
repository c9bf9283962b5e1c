import SegmentWire.Segment.Basic

/-!
# Segments in memory

A node is a segment as it lies in memory: each node has an address, and a child
that several compositions share is one node with one address. The segment that a
node stands for is the node without its addresses.
-/
namespace SegmentWire

mutual

inductive Node
  | literal (address : Nat) (interfaces : List PathInterface)
  | composition (address : Nat) (nodes : NodeList)
with
  /-- The segment that the node stands for. -/
  @[computed_field] segment : Node → Segment
    | .literal _ interfaces => .literal interfaces
    | .composition _ nodes => .composition nodes.segments

inductive NodeList
  | nil
  | cons (head : Node) (tail : NodeList)
with
  @[computed_field] segments : NodeList → SegmentList
    | .nil => .nil
    | .cons head tail => .cons head.segment tail.segments

end

namespace NodeList

def toList : NodeList → List Node
  | .nil => []
  | .cons head tail => head :: tail.toList

def ofList (nodes : List Node) : NodeList :=
  nodes.foldr .cons .nil

@[simp] theorem toList_ofList (nodes : List Node) : (ofList nodes).toList = nodes := by
  induction nodes with
  | nil => rfl
  | cons node nodes ih =>
    have step : ofList (node :: nodes) = cons node (ofList nodes) := rfl
    rw [step, toList, ih]

@[simp] theorem toList_segments : ∀ nodes : NodeList,
    nodes.segments.toList = nodes.toList.map Node.segment
  | .nil => rfl
  | .cons head tail => by simp [segments, toList, toList_segments tail]

end NodeList

namespace Node

def address : Node → Nat
  | .literal address _ => address
  | .composition address _ => address

/-- The child nodes, none for a literal. -/
def children : Node → List Node
  | .literal .. => []
  | .composition _ nodes => nodes.toList

end Node

mutual

/-- The number of nodes, counting a shared one once for each occurrence. -/
def Node.size : Node → Nat
  | .literal .. => 1
  | .composition _ nodes => nodes.size + 1

def NodeList.size : NodeList → Nat
  | .nil => 0
  | .cons head tail => head.size + tail.size

end

/-- The sizes of the nodes of a list, added up. -/
def Node.totalSize : List Node → Nat
  | [] => 0
  | node :: nodes => node.size + totalSize nodes

theorem NodeList.size_eq_totalSize : ∀ nodes : NodeList, nodes.size = Node.totalSize nodes.toList
  | .nil => rfl
  | .cons head tail => by simp [size, toList, Node.totalSize, size_eq_totalSize tail]

theorem Node.size_eq (node : Node) : node.size = totalSize node.children + 1 := by
  cases node with
  | literal => rfl
  | composition address nodes => simp [size, children, NodeList.size_eq_totalSize]

mutual

/-- Places a segment in memory from address `next` on, nothing shared, and returns the next
address after it. -/
def Segment.place (next : Nat) : Segment → Node × Nat
  | .literal interfaces => (.literal next interfaces, next + 1)
  | .composition segments =>
    let (nodes, after) := segments.place (next + 1)
    (.composition next nodes, after)

def SegmentList.place (next : Nat) : SegmentList → NodeList × Nat
  | .nil => (.nil, next)
  | .cons head tail =>
    let (head, after) := head.place next
    let (tail, after) := tail.place after
    (.cons head tail, after)

end

mutual

theorem Segment.segment_place (next : Nat) : ∀ s : Segment, (s.place next).1.segment = s
  | .literal interfaces => rfl
  | .composition segments => by
    simp only [Segment.place, Node.segment, SegmentList.segments_place]

theorem SegmentList.segments_place (next : Nat) : ∀ segments : SegmentList,
    (segments.place next).1.segments = segments
  | .nil => rfl
  | .cons head tail => by
    simp only [SegmentList.place, NodeList.segments, Segment.segment_place,
      SegmentList.segments_place]

end

end SegmentWire
