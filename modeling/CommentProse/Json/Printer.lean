import CommentProse.Json

/-!
The text of a JSON value.

* `Json.quote`: a string with its escapes;
* `Json.pretty`: one item or member a line, two spaces for each level;
* `Json.compact`: all on one line without spaces.
-/

namespace CommentProse.Json

/-- A digit to base sixteen, in lower case. -/
def hexDigit (n : Nat) : Char :=
  if n < 10 then Char.ofNat (0x30 + n) else Char.ofNat (0x61 + (n - 10))

/-- A character inside a string: the quotation mark, the backslash and control characters are
escaped, all else stands for itself. -/
def escape (c : Char) : List Char :=
  match c with
  | '"' => ['\\', '"']
  | '\\' => ['\\', '\\']
  | '\x08' => ['\\', 'b']
  | '\t' => ['\\', 't']
  | '\n' => ['\\', 'n']
  | '\x0c' => ['\\', 'f']
  | '\r' => ['\\', 'r']
  | _ =>
    if c.toNat < 0x20 then
      ['\\', 'u', '0', '0', hexDigit (c.toNat / 16), hexDigit (c.toNat % 16)]
    else [c]

/-- A string between quotation marks. -/
def quote (s : String) : List Char := '"' :: s.toList.flatMap escape ++ ['"']

/-- The digits of a whole number. -/
def intChars (n : Int) : List Char :=
  if n < 0 then '-' :: Nat.toDigits 10 n.natAbs else Nat.toDigits 10 n.natAbs

/-- The text of a value without items or members. -/
def leafChars : Json → List Char
  | .null => ['n', 'u', 'l', 'l']
  | .bool true => ['t', 'r', 'u', 'e']
  | .bool false => ['f', 'a', 'l', 's', 'e']
  | .int n => intChars n
  | .float x => x.text.toList
  | .str s => quote s
  | .arr _ => ['[', ']']
  | .obj _ => ['\x7b', '\x7d']

/-- A new line that is indented for a level. -/
def newLine (level : Nat) : List Char := '\n' :: List.replicate (2 * level) ' '

mutual
/-- The text of a value at a level. -/
def chars (level : Nat) : Json → List Char
  | .arr (x :: xs) =>
    '[' :: newLine (level + 1) ++ chars (level + 1) x ++ itemChars (level + 1) xs
      ++ newLine level ++ [']']
  | .obj ((k, v) :: ms) =>
    '\x7b' :: newLine (level + 1) ++ quote k ++ ':' :: ' ' :: chars (level + 1) v
      ++ memberChars (level + 1) ms ++ newLine level ++ ['\x7d']
  | v => leafChars v
/-- The text of the items after the first. -/
def itemChars (level : Nat) : List Json → List Char
  | [] => []
  | x :: xs => ',' :: newLine level ++ chars level x ++ itemChars level xs
/-- The text of the members after the first. -/
def memberChars (level : Nat) : List (String × Json) → List Char
  | [] => []
  | (k, v) :: ms =>
    ',' :: newLine level ++ quote k ++ ':' :: ' ' :: chars level v ++ memberChars level ms
end

/-- The text of a value, one item or member a line. -/
def pretty (j : Json) : String := String.ofList (chars 0 j)

mutual
/-- The text of a value without spaces. -/
def compactChars : Json → List Char
  | .arr (x :: xs) => '[' :: compactChars x ++ compactItems xs ++ [']']
  | .obj ((k, v) :: ms) =>
    '\x7b' :: quote k ++ ':' :: compactChars v ++ compactMembers ms ++ ['\x7d']
  | v => leafChars v
/-- The text of the items after the first. -/
def compactItems : List Json → List Char
  | [] => []
  | x :: xs => ',' :: compactChars x ++ compactItems xs
/-- The text of the members after the first. -/
def compactMembers : List (String × Json) → List Char
  | [] => []
  | (k, v) :: ms => ',' :: quote k ++ ':' :: compactChars v ++ compactMembers ms
end

/-- The text of a value on one line. -/
def compact (j : Json) : String := String.ofList (compactChars j)

end CommentProse.Json
