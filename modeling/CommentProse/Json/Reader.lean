import CommentProse.Json

/-!
Reading a JSON text.

* `Json.readString`: the rest of a string after its opening quotation mark;
* `Json.readNumber`: a number, whole or not;
* `Json.parse`: the value of a whole text, if it is one.

Every call of the reader for values spends one unit of fuel, and a text has no more values, items
and members than characters, so its length is fuel enough.
-/

namespace CommentProse.Json

/-- White space between the parts of a text. -/
def isSpace (c : Char) : Bool := c = ' ' || c = '\t' || c = '\n' || c = '\r'

/-- The text after white space. -/
def skipSpace (cs : List Char) : List Char := cs.dropWhile isSpace

/-- The value of a digit to base sixteen. -/
def hexValue? (c : Char) : Option Nat :=
  let n := c.toNat
  if 0x30 ≤ n ∧ n ≤ 0x39 then some (n - 0x30)
  else if 0x61 ≤ n ∧ n ≤ 0x66 then some (n - 0x61 + 10)
  else if 0x41 ≤ n ∧ n ≤ 0x46 then some (n - 0x41 + 10)
  else none

/-- The value of four digits to base sixteen. -/
def hex4? (a b c d : Char) : Option Nat := do
  let a ← hexValue? a
  let b ← hexValue? b
  let c ← hexValue? c
  let d ← hexValue? d
  pure (((a * 16 + b) * 16 + c) * 16 + d)

/-- The character of an escape of one letter. -/
def simpleEscape? (c : Char) : Option Char :=
  match c with
  | '"' => some '"'
  | '\\' => some '\\'
  | '/' => some '/'
  | 'b' => some '\x08'
  | 'f' => some '\x0c'
  | 'n' => some '\n'
  | 'r' => some '\r'
  | 't' => some '\t'
  | _ => none

/-- The rest of a string up to its closing quotation mark, behind characters read already in
reverse. Two escapes of a surrogate pair are one character. -/
def readString (read : List Char) : List Char → Option (String × List Char)
  | [] => none
  | '"' :: cs => some (String.ofList read.reverse, cs)
  | '\\' :: 'u' :: a :: b :: c :: d :: cs =>
    match hex4? a b c d with
    | none => none
    | some n =>
      if 0xD800 ≤ n ∧ n < 0xDC00 then
        match cs with
        | '\\' :: 'u' :: e :: f :: g :: h :: cs =>
          match hex4? e f g h with
          | none => none
          | some m =>
            if 0xDC00 ≤ m ∧ m < 0xE000 then
              readString (Char.ofNat (0x10000 + (n - 0xD800) * 0x400 + (m - 0xDC00)) :: read) cs
            else none
        | _ => none
      else if 0xDC00 ≤ n ∧ n < 0xE000 then none
      else readString (Char.ofNat n :: read) cs
  | '\\' :: c :: cs =>
    match simpleEscape? c with
    | none => none
    | some x => readString (x :: read) cs
  | c :: cs => if c.toNat < 0x20 ∨ c = '\\' then none else readString (c :: read) cs

/-- The number that digits stand for. -/
def ofDigits (ds : List Char) : Nat := ds.foldl (fun n d => n * 10 + (d.toNat - 0x30)) 0

/-- The least number that does not fit into 64 bits. -/
def wordLimit : Nat := 18446744073709551616

/-- A whole number, if it fits into 64 bits, and otherwise a decimal number. -/
def ofInteger (negative : Bool) (n : Nat) : Json :=
  if negative then
    if n = 0 ∨ wordLimit < 2 * n then .float ⟨true, n, 0⟩ else .int (-n)
  else if n < wordLimit then .int n else .float ⟨false, n, 0⟩

/-- The exponent of a number after its letter. -/
def readExponent (cs : List Char) : Option (Int × List Char) :=
  let (negative, cs) :=
    match cs with
    | '-' :: rest => (true, rest)
    | '+' :: rest => (false, rest)
    | _ => (false, cs)
  let ds := cs.takeWhile Char.isDigit
  if ds.isEmpty then none
  else
    let n : Int := ofDigits ds
    some (if negative then -n else n, cs.dropWhile Char.isDigit)

/-- A number without its sign. -/
def readUnsigned (negative : Bool) (cs : List Char) : Option (Json × List Char) :=
  let whole := cs.takeWhile Char.isDigit
  let cs := cs.dropWhile Char.isDigit
  if whole.isEmpty ∨ (whole.head? = some '0' ∧ whole.length ≠ 1) then none
  else
    let fraction :=
      match cs with
      | '.' :: rest => some (rest.takeWhile Char.isDigit, rest.dropWhile Char.isDigit)
      | _ => none
    let (part, cs) := fraction.getD ([], cs)
    if fraction.isSome ∧ part.isEmpty then none
    else
      let exponent :=
        match cs with
        | 'e' :: rest => some (readExponent rest)
        | 'E' :: rest => some (readExponent rest)
        | _ => none
      match exponent with
      | some none => none
      | some (some (e, rest)) =>
        some (.float ⟨negative, ofDigits (whole ++ part), e - part.length⟩, rest)
      | none =>
        if fraction.isSome then
          some (.float ⟨negative, ofDigits (whole ++ part), -part.length⟩, cs)
        else some (ofInteger negative (ofDigits whole), cs)

/-- A number in the range of its kind. -/
def readNumber (cs : List Char) : Option (Json × List Char) :=
  let result :=
    match cs with
    | '-' :: rest => readUnsigned true rest
    | _ => readUnsigned false cs
  match result with
  | some (.float x, rest) => if x.binary?.isSome then some (.float x, rest) else none
  | other => other

mutual
/-- A value after white space, and the text behind it. -/
def readValue : Nat → List Char → Option (Json × List Char)
  | 0, _ => none
  | fuel + 1, cs =>
    match skipSpace cs with
    | 'n' :: 'u' :: 'l' :: 'l' :: rest => some (.null, rest)
    | 't' :: 'r' :: 'u' :: 'e' :: rest => some (.bool true, rest)
    | 'f' :: 'a' :: 'l' :: 's' :: 'e' :: rest => some (.bool false, rest)
    | '"' :: rest => (readString [] rest).map fun (s, rest) => (.str s, rest)
    | '[' :: rest =>
      match skipSpace rest with
      | ']' :: rest => some (.arr [], rest)
      | rest => (readItems fuel rest).map fun (items, rest) => (.arr items, rest)
    | '\x7b' :: rest =>
      match skipSpace rest with
      | '\x7d' :: rest => some (.obj [], rest)
      | rest => (readMembers fuel rest).map fun (members, rest) => (.obj members, rest)
    | rest => readNumber rest
/-- At least one item, up to the closing bracket. -/
def readItems : Nat → List Char → Option (List Json × List Char)
  | 0, _ => none
  | fuel + 1, cs =>
    match readValue fuel cs with
    | none => none
    | some (x, rest) =>
      match skipSpace rest with
      | ']' :: rest => some ([x], rest)
      | ',' :: rest => (readItems fuel rest).map fun (xs, rest) => (x :: xs, rest)
      | _ => none
/-- At least one member, up to the closing brace. -/
def readMembers : Nat → List Char → Option (List (String × Json) × List Char)
  | 0, _ => none
  | fuel + 1, cs =>
    match skipSpace cs with
    | '"' :: rest =>
      match readString [] rest with
      | none => none
      | some (k, rest) =>
        match skipSpace rest with
        | ':' :: rest =>
          match readValue fuel rest with
          | none => none
          | some (v, rest) =>
            match skipSpace rest with
            | '\x7d' :: rest => some ([(k, v)], rest)
            | ',' :: rest => (readMembers fuel rest).map fun (ms, rest) => ((k, v) :: ms, rest)
            | _ => none
        | _ => none
    | _ => none
end

/-- The value of a text that holds one value and white space. -/
def parse (text : String) : Option Json :=
  let cs := text.toList
  match readValue (2 * cs.length + 1) cs with
  | some (j, rest) => if (skipSpace rest).isEmpty then some j else none
  | none => none

end CommentProse.Json
