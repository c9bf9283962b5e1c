import SegmentWire.Message.Decoding
import SegmentWire.Message.Encoding

/-!
# Encoding what was decoded

What a message without a cache announces is announced again, to a receiver without
a cache. If that can be encoded, it must decode to as many accepted segments, each
the same as before or a wrapper around it.
-/
namespace SegmentWire

/-- Whether `again` is the segment or its wrapper, by fingerprint. -/
def Segment.isReannouncedAs (s again : Segment) : Bool :=
  again.fingerprint == s.fingerprint || again.fingerprint == s.wrapper.fingerprint

/-- Whether each segment of a list is announced again by its partner in a list of equal length. -/
def allReannounced : List Segment → List Segment → Bool
  | [], [] => true
  | s :: segments, again :: rest => s.isReannouncedAs again && allReannounced segments rest
  | _, _ => false

/-- Whether a message that decodes and whose accepted segments encode survives both. -/
def survivesReencoding (bs : Bytes) : Bool :=
  match decode {} bs [] with
  | .error _ => true
  | .ok decoded =>
    match encode {} [] decoded.acceptedSegments decoded.source decoded.destination with
    | .error _ => true
    | .ok encoded =>
      match decode {} encoded.bytes [] with
      | .error _ => false
      | .ok again => allReannounced decoded.acceptedSegments again.acceptedSegments

end SegmentWire
