import SegmentWire.Message.Encoding
import SegmentWire.Summary

/-!
# Messages in files

What is reported about a message that has been encoded and written to a file.
-/
namespace SegmentWire

structure Delivery where
  /-- The name of the file. -/
  output : String
  /-- Bytes in the message. -/
  size : Nat
  /-- Segments that the message announces. -/
  requested : Nat
  /-- The records, numbered on from the cache. -/
  sent : List Summary
  deriving DecidableEq

namespace Delivery

def ofMessage (output : String) (cache segments : List Segment) (message : EncodedMessage) :
    Delivery where
  output
  size := message.bytes.length
  requested := segments.length
  sent := Summary.ofList cache.length message.sent

def toJson (delivery : Delivery) : Json := .object [
  ("output", .string delivery.output),
  ("size", .nat delivery.size),
  ("requested", .nat delivery.requested),
  ("sent", Summary.listToJson delivery.sent)]

def lines (delivery : Delivery) : List String :=
  ("Wrote " ++ Nat.repr delivery.size ++ " bytes to " ++ delivery.output ++ " (" ++
    Nat.repr delivery.requested ++ " segments, " ++ Nat.repr delivery.sent.length ++
    " records)") ::
  delivery.sent.map fun summary => summary.columns ++ " " ++ summary.fingerprint.hex

end Delivery

end SegmentWire
