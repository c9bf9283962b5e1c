import SegmentWire.IndexTable

/-!
# Calls on an index table

A table that is kept from one call to the next and changed in place. Calls may fail
and be followed by others, and a log keeps them with their outcomes.
-/
namespace SegmentWire

inductive TableCall
  | assign (f : Fingerprint)
  | reserve

def TableCall.perform : TableCall → TableM UInt16
  | assign f => TableM.assign f
  | reserve => TableM.reserve

/-- A call with what it returned. -/
structure TableEvent where
  call : TableCall
  outcome : Except CodecError UInt16

/-- Makes calls one after the other, whatever their outcomes, and logs them. -/
def IndexTable.serve (table : IndexTable) : List TableCall → List TableEvent × IndexTable
  | [] => ([], table)
  | call :: calls =>
    let (outcome, after) := call.perform.run.run table
    let (log, last) := after.serve calls
    (⟨call, outcome⟩ :: log, last)

end SegmentWire
