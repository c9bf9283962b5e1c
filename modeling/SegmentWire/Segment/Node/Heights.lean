import Std.Data.TreeMap
import SegmentWire.Error
import SegmentWire.Segment.Node

/-!
# Heights of shared nodes

A guard knows a limit. Asked for node after node, it tells whether the height is
within it, and what it is then. It keeps the heights that it has found, by address.
No node is looked at that lies deeper below the node asked for than the limit, so
that the limit bounds the work on a graph of any depth. A refusal keeps what has
been found on the way.
-/
namespace SegmentWire

structure HeightGuard where
  limit : Nat
  heights : Std.TreeMap Nat Nat
  /-- The depths below the node asked for at which nodes were looked at, the last one first. -/
  depths : List Nat

namespace HeightGuard

/-- A guard that has not found any heights yet. -/
def start (limit : Nat) : HeightGuard :=
  ⟨limit, ∅, []⟩

def refusal (guard : HeightGuard) : CodecError :=
  .nestingTooDeep guard.limit

/-- The height of a node at the given depth, unless the two together exceed the limit. -/
def checked (guard : HeightGuard) (depth height : Nat) : Except CodecError Nat :=
  if guard.limit < depth + height then .error guard.refusal else .ok height

def look (guard : HeightGuard) (depth : Nat) : HeightGuard :=
  { guard with depths := depth :: guard.depths }

def enter (guard : HeightGuard) (address height : Nat) : HeightGuard :=
  { guard with heights := guard.heights.insert address height }

mutual

/-- Finds the height of a node at the given depth. -/
def heightAt (guard : HeightGuard) (depth : Nat) : Node → Except CodecError Nat × HeightGuard
  | .literal .. => (.ok 0, guard.look depth)
  | .composition _ .nil => (.ok 0, guard.look depth)
  | .composition address (.cons head tail) =>
    let guard := guard.look depth
    match guard.heights[address]? with
    | some height => (guard.checked depth height, guard)
    | none =>
      if guard.limit ≤ depth then (.error guard.refusal, guard)
      else
        match guard.heightAt (depth + 1) head with
        | (.error e, guard) => (.error e, guard)
        | (.ok headHeight, guard) =>
          match guard.levelsAt (depth + 1) tail with
          | (.error e, guard) => (.error e, guard)
          | (.ok levels, guard) =>
            let height := max (headHeight + 1) levels
            let guard := guard.enter address height
            (guard.checked depth height, guard)

/-- Finds the levels of a composition over nodes at the given depth. -/
def levelsAt (guard : HeightGuard) (depth : Nat) : NodeList → Except CodecError Nat × HeightGuard
  | .nil => (.ok 0, guard)
  | .cons head tail =>
    match guard.heightAt depth head with
    | (.error e, guard) => (.error e, guard)
    | (.ok headHeight, guard) =>
      match guard.levelsAt depth tail with
      | (.error e, guard) => (.error e, guard)
      | (.ok levels, guard) => (.ok (max (headHeight + 1) levels), guard)

end

/-- Finds the height of a node, which must be within the limit. -/
def height (guard : HeightGuard) (node : Node) : Except CodecError Nat × HeightGuard :=
  guard.heightAt 0 node

end HeightGuard

end SegmentWire
