import Std.Data.TreeMap
import SegmentWire.Record

/-!
# The index table

The sender numbers the segments of the receiver's cache and of its own records in
one sequence of 16-bit positions. The table maps fingerprints to positions.
Positions are handed out in order and never taken back; a fingerprint that is
registered again keeps its last position. A table is changed in place. Encoding
stops at the first failure, so it needs only the table that a success leaves.
-/
namespace SegmentWire

structure IndexTable where
  positions : Std.TreeMap Fingerprint UInt16
  /-- The position that the next segment receives. -/
  next : Nat

namespace IndexTable

def empty : IndexTable :=
  ⟨∅, 0⟩

/-- Positions that a table can hand out. -/
def capacity : Nat := 65536

def get? (table : IndexTable) (f : Fingerprint) : Option UInt16 :=
  table.positions[f]?

def contains (table : IndexTable) (f : Fingerprint) : Bool :=
  table.positions.contains f

/-- The number of registered fingerprints. -/
def size (table : IndexTable) : Nat :=
  table.positions.size

end IndexTable

/-- Work on a table in place. A failure undoes nothing that was done before it. -/
abbrev TableM := ExceptT CodecError (StateM IndexTable)

namespace TableM

/-- Takes the next position, without registering a fingerprint. -/
def reserve : TableM UInt16 := do
  let next := (← get).next
  if next < IndexTable.capacity then
    modify fun table => { table with next := next + 1 }
    return UInt16.ofNat next
  else throw (.indexOverflow next)

/-- Takes the next position and registers a fingerprint there. -/
def assign (f : Fingerprint) : TableM UInt16 := do
  let position ← reserve
  modify fun table => { table with positions := table.positions.insert f position }
  return position

/-- What work gives and the table that it leaves, if it succeeds. -/
def resultOn {α : Type} (work : TableM α) (table : IndexTable) :
    Except CodecError (α × IndexTable) :=
  match work.run.run table with
  | (.ok a, after) => .ok (a, after)
  | (.error e, _) => .error e

/-- A failure is found before anything is changed. -/
theorem run_reserve (table : IndexTable) : reserve.run.run table =
    if table.next < IndexTable.capacity then
      (.ok (UInt16.ofNat table.next), { table with next := table.next + 1 })
    else (.error (.indexOverflow table.next), table) := by
  have hrun : reserve.run.run table = (if table.next < IndexTable.capacity then (do
      modify fun after => { after with next := table.next + 1 }
      return UInt16.ofNat table.next : TableM UInt16)
    else throw (.indexOverflow table.next)).run.run table := rfl
  rw [hrun]
  split <;> rfl

theorem run_assign (f : Fingerprint) (table : IndexTable) : (assign f).run.run table =
    if table.next < IndexTable.capacity then
      (.ok (UInt16.ofNat table.next),
        ⟨table.positions.insert f (UInt16.ofNat table.next), table.next + 1⟩)
    else (.error (.indexOverflow table.next), table) := by
  rw [assign, ExceptT.run_bind, StateT.run_bind, run_reserve]
  split <;> rfl

end TableM

namespace IndexTable

/-- Hands out the next position without registering a fingerprint. -/
def reserve (table : IndexTable) : Except CodecError (UInt16 × IndexTable) :=
  TableM.reserve.resultOn table

/-- Registers a fingerprint at the next position. -/
def assign (table : IndexTable) (f : Fingerprint) : Except CodecError (UInt16 × IndexTable) :=
  (TableM.assign f).resultOn table

theorem reserve_eq (table : IndexTable) : table.reserve =
    if table.next < capacity then
      .ok (UInt16.ofNat table.next, { table with next := table.next + 1 })
    else .error (.indexOverflow table.next) := by
  rw [reserve, TableM.resultOn, TableM.run_reserve]
  by_cases h : table.next < capacity
  · rw [if_pos h, if_pos h]
  · rw [if_neg h, if_neg h]

theorem assign_eq (table : IndexTable) (f : Fingerprint) : table.assign f =
    table.reserve >>= fun reserved =>
      .ok (reserved.1,
        { reserved.2 with positions := reserved.2.positions.insert f reserved.1 }) := by
  rw [assign, TableM.resultOn, TableM.run_assign, reserve_eq]
  by_cases h : table.next < capacity
  · rw [if_pos h, if_pos h]
    rfl
  · rw [if_neg h, if_neg h]
    rfl

/-- Registers the segments of a list in order. -/
def assignAll (table : IndexTable) : List Segment → Except CodecError IndexTable
  | [] => .ok table
  | s :: segments =>
    match table.assign s.fingerprint with
    | .ok (_, table) => table.assignAll segments
    | .error e => .error e

/-- The table of a receiver that holds the given cache. -/
def ofCache (cache : List Segment) : Except CodecError IndexTable :=
  empty.assignAll cache

/-- The position of a child, which must be registered. -/
def reference (table : IndexTable) (f : Fingerprint) : Except CodecError UInt16 :=
  match table.get? f with
  | some position => .ok position
  | none => .error (.unindexedChild f.hex)

/-- The record of a segment whose children are registered. -/
def record (table : IndexTable) (accepted : Bool) (s : Segment) : Except CodecError Record :=
  if 255 < s.length then .error (.segmentTooLong s.length)
  else match s with
    | .literal interfaces => .ok ⟨accepted, .interfaces interfaces⟩
    | .composition segments => do
      let positions ← segments.fingerprints.mapM table.reference
      .ok ⟨accepted, .references positions⟩

end IndexTable

end SegmentWire
