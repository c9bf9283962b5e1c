import SegmentWire.Text.GraphemeExtend
import SegmentWire.Text.Invisible

/-!
# Quoted text in messages

Text that a message repeats stands between quotation marks. What would not be seen
there as the character it is has an escape: quotation marks, backslashes, line
ends and tabs by a letter, invisible characters and grapheme extenders by number.
-/
namespace SegmentWire.Text

/-- The escape of a character by its number. -/
def numericEscape (c : Char) : List Char :=
  '\\' :: 'u' :: '\x7b' :: Nat.toDigits 16 c.toNat ++ ['\x7d']

def quoteChar (c : Char) : List Char :=
  if c = '\x00' then ['\\', '0']
  else if c = '\t' then ['\\', 't']
  else if c = '\r' then ['\\', 'r']
  else if c = '\n' then ['\\', 'n']
  else if c = '\\' then ['\\', '\\']
  else if c = '"' then ['\\', '"']
  else if isGraphemeExtend c || isInvisible c then numericEscape c
  else [c]

/-- Quotes a text. -/
def quote (text : String) : String :=
  String.ofList ('"' :: text.toList.flatMap quoteChar ++ ['"'])

end SegmentWire.Text
