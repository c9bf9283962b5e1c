import SegmentWire.Segment.Basic

/-!
# Sample segments

Segments of any size and depth whose literals are all different, for trying out
the codec. All their interfaces belong to one AS. And a message with something in
every place that a receiver passes over.
-/
namespace SegmentWire

/-- Interfaces of one AS with consecutive numbers, which wrap around at 2^64. -/
def PathInterface.consecutive (first : UInt64) (count : Nat) (ia : IsdAsn) : List PathInterface :=
  (List.range count).map fun i => ⟨first + UInt64.ofNat i, ia⟩

namespace Sample

def isdAsn : IsdAsn :=
  ⟨0x0001ff0000000110⟩

def literal (first hops : Nat) : Segment :=
  .literal (PathInterface.consecutive (UInt64.ofNat first) hops isdAsn)

/-- Literals of `hops` interfaces each, numbered on from one to the next. -/
def flat (count hops : Nat) : List Segment :=
  (List.range count).map fun i => literal (i * hops) hops

/-- A row of trees, grown from left to right, and the number of leaves after them. -/
def growEach (grow : Nat → Segment × Nat) : Nat → Nat → SegmentList × Nat
  | 0, leaves => (.nil, leaves)
  | n + 1, leaves =>
    let (head, leaves) := grow leaves
    let (tail, leaves) := growEach grow n leaves
    (.cons head tail, leaves)

/-- A complete tree after `leaves` other leaves, and the number of leaves with its own. -/
def grow (width : Nat) : Nat → Nat → Segment × Nat
  | 0, leaves => (literal ((leaves + 1) * 4) 4, leaves + 1)
  | depth + 1, leaves =>
    let (segments, leaves) := growEach (grow width depth) width leaves
    (.composition segments, leaves)

/-- A complete tree of compositions over literals of four interfaces. -/
def tree (depth width : Nat) : Segment :=
  (grow width depth 0).1

/-- The literal of one interface numbered 7 and a wrapper around it, under a header with padding.
The reserved byte and the unknown flag bits are set, both records have options, and a byte
follows. -/
def untidyMessage : Bytes :=
  [0xaa, 22, 0, 2] ++ BigEndian.u64 1 ++ BigEndian.u64 2 ++ [0xee, 0xee] ++
    [0xfc, 1, 0, 1] ++ BigEndian.u64 7 ++ BigEndian.u64 isdAsn.packed ++ [0x77] ++
    [0xf3, 1, 0, 2, 0, 0, 8, 9] ++ [5]

end Sample

end SegmentWire
