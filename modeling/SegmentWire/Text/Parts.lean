/-!
# Parts of a text

A text with separators in it falls into parts, one more than there are separators.
-/
namespace SegmentWire.Text

/-- The parts of a text before, between and after the separators. -/
def parts (separator : Char) : List Char → List (List Char)
  | [] => [[]]
  | c :: cs =>
    match parts separator cs with
    | [] => [[c]]
    | first :: rest => if c = separator then [] :: first :: rest else (c :: first) :: rest

end SegmentWire.Text
