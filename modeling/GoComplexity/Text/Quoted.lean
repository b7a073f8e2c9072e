import GoComplexity.Text.Visible

/-!
# Quoted texts in messages

A text is shown between double quotes, with escapes for quotes, backslashes and whatever cannot be
shown.
-/

namespace GoComplexity.Text

/-- A character by its number in hexadecimal digits. -/
def numbered (c : Char) : List Char :=
  "\\u\x7b".toList ++ Nat.toDigits 16 c.toNat ++ ['\x7d']

/-- How a character stands in a quoted text. -/
def quoteChar (c : Char) : List Char :=
  if c = '\x00' then "\\0".toList
  else if c = '\t' then "\\t".toList
  else if c = '\n' then "\\n".toList
  else if c = '\r' then "\\r".toList
  else if c = '\\' then "\\\\".toList
  else if c = '\x22' then "\\\x22".toList
  else if isInvisible c then numbered c
  else [c]

def quoted (s : String) : String :=
  String.ofList ('\x22' :: s.toList.flatMap quoteChar ++ ['\x22'])

end GoComplexity.Text
