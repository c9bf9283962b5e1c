/-!
# Padding

Text is filled up with blanks to a column width. Text that is wider stays as it is.
-/
namespace SegmentWire.Text

/-- Fills up on the left. -/
def alignRight (width : Nat) (text : String) : String :=
  String.ofList (List.replicate (width - text.length) ' ') ++ text

/-- Fills up on the right. -/
def alignLeft (width : Nat) (text : String) : String :=
  text ++ String.ofList (List.replicate (width - text.length) ' ')

end SegmentWire.Text
