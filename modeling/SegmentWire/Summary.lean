import SegmentWire.Fingerprint.Json
import SegmentWire.Segment.Basic
import SegmentWire.Text.Padding

/-!
# Segment summaries

A summary tells a segment's position, kind, length and fingerprint. It is shown as
JSON fields or as columns of a line.
-/
namespace SegmentWire

structure Summary where
  index : Nat
  kind : SegmentKind
  length : Nat
  fingerprint : Fingerprint
  deriving DecidableEq

namespace Summary

def ofSegment (index : Nat) (s : Segment) : Summary :=
  ⟨index, s.kind, s.length, s.fingerprint⟩

/-- The summaries of a list whose first segment is at position `first`. -/
def ofList (first : Nat) (segments : List Segment) : List Summary :=
  (segments.zipIdx first).map fun (s, index) => ofSegment index s

def fields (summary : Summary) : List (String × Json) := [
  ("index", .nat summary.index),
  ("kind", .string summary.kind.name),
  ("len", .nat summary.length),
  ("fingerprint", summary.fingerprint.toJson)]

def toJson (summary : Summary) : Json :=
  .object summary.fields

def listToJson (summaries : List Summary) : Json :=
  .array (summaries.map toJson)

/-- The columns before the fingerprint. -/
def columns (summary : Summary) : String :=
  "  [" ++ Text.alignRight 5 (Nat.repr summary.index) ++ "] " ++
    Text.alignLeft 11 summary.kind.name ++ " len=" ++
    Text.alignLeft 3 (Nat.repr summary.length)

/-- The fingerprint first, then kind and length. -/
def fingerprintLine (summary : Summary) : String :=
  summary.fingerprint.hex ++ "  " ++ summary.kind.name ++ " len=" ++ Nat.repr summary.length

end Summary

end SegmentWire
