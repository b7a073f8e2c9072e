/-!
# JSON

Values and their text over several lines: every item of an array or object stands on a line of its
own, indented by two spaces for each level, and empty ones are written without a line break.
-/

namespace GoComplexity

inductive Json where
  | bool (b : Bool)
  | int (n : Int)
  | str (s : String)
  | arr (items : List Json)
  | obj (fields : List (String × Json))

namespace Json

/-- A control character by its number in four hexadecimal digits. -/
def controlEscape (c : Char) : List Char :=
  let digit (n : Nat) : Char := (Nat.digitChar n)
  ['\\', 'u', '0', '0', digit (c.toNat / 16), digit (c.toNat % 16)]

/-- How a character stands in a string. -/
def escapeChar (c : Char) : List Char :=
  if c = '\x22' then ['\\', '\x22']
  else if c = '\\' then ['\\', '\\']
  else if c = '\x08' then ['\\', 'b']
  else if c = '\x0c' then ['\\', 'f']
  else if c = '\n' then ['\\', 'n']
  else if c = '\r' then ['\\', 'r']
  else if c = '\t' then ['\\', 't']
  else if c < ' ' then controlEscape c
  else [c]

def quote (s : String) : List Char := '\x22' :: s.toList.flatMap escapeChar ++ ['\x22']

/-- A line break and the indentation of a level. -/
def newline (depth : Nat) : List Char := '\n' :: List.replicate (2 * depth) ' '

mutual

/-- The text of a value that starts at a level. -/
def write (depth : Nat) : Json → List Char
  | .bool true => "true".toList
  | .bool false => "false".toList
  | .int n => (toString n).toList
  | .str s => quote s
  | .arr [] => ['[', ']']
  | .arr (x :: xs) =>
    '[' :: newline (depth + 1) ++ write (depth + 1) x ++ writeItems (depth + 1) xs ++
      newline depth ++ [']']
  | .obj [] => ['\x7b', '\x7d']
  | .obj ((name, x) :: fields) =>
    '\x7b' :: newline (depth + 1) ++ quote name ++ [':', ' '] ++ write (depth + 1) x ++
      writeFields (depth + 1) fields ++ newline depth ++ ['\x7d']

/-- The items after the first one. -/
def writeItems (depth : Nat) : List Json → List Char
  | [] => []
  | x :: xs => ',' :: newline depth ++ write depth x ++ writeItems depth xs

/-- The fields after the first one. -/
def writeFields (depth : Nat) : List (String × Json) → List Char
  | [] => []
  | (name, x) :: fields =>
    ',' :: newline depth ++ quote name ++ [':', ' '] ++ write depth x ++ writeFields depth fields

end

def render (j : Json) : String := String.ofList (write 0 j)

end Json

end GoComplexity
