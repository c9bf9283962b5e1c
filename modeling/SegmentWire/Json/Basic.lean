import SegmentWire.Json.Numeral

/-!
# JSON values

An object keeps its fields in the order in which they are written, repeated names
included. Numbers are of two sorts, because everything that is counted or named
here is an unsigned 64-bit integer: those, and all others in their written form.
-/
namespace SegmentWire

inductive Json
  | null
  | bool (value : Bool)
  | unsigned (value : UInt64)
  | number (numeral : Json.Numeral)
  | string (value : String)
  | array (items : List Json)
  | object (fields : List (String × Json))
  deriving Inhabited

namespace Json

def nat (n : Nat) : Json :=
  unsigned (UInt64.ofNat n)

mutual

/-- The value with the fields of every object in the order of their names. -/
def sortFields : Json → Json
  | null => null
  | bool value => bool value
  | unsigned value => unsigned value
  | number numeral => number numeral
  | string value => string value
  | array items => array (sortFieldsOfItems items)
  | object fields => object ((sortFieldsOfFields fields).mergeSort fun a b => decide (a.1 ≤ b.1))

def sortFieldsOfItems : List Json → List Json
  | [] => []
  | item :: items => item.sortFields :: sortFieldsOfItems items

def sortFieldsOfFields : List (String × Json) → List (String × Json)
  | [] => []
  | (name, value) :: fields => (name, value.sortFields) :: sortFieldsOfFields fields

end

end Json

end SegmentWire
