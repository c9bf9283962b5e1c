import SegmentWire.Fingerprint
import SegmentWire.Json.Reading
import SegmentWire.Json.Writing

/-!
# Fingerprints in JSON

A fingerprint is a string of hexadecimal digits.
-/
namespace SegmentWire.Fingerprint

def toJson (f : Fingerprint) : Json :=
  .string f.hex

def ofJson? : Json → Option Fingerprint
  | .string text => ofHex? text
  | _ => none

/-- The fingerprint in a JSON text. -/
def ofBytes? (bs : Bytes) : Option Fingerprint := do
  ofJson? (← Json.ofBytes? bs)

end SegmentWire.Fingerprint
