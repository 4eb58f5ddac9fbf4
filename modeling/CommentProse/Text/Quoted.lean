import CommentProse.Text.Printable

/-!
Texts quoted for a message.

* `quoted`: a text between quotation marks, with escapes for quotation marks, backslashes and
  characters that do not show;
* `quotedPath`: the same for a path, where an apostrophe is escaped as well;
* `quotedList`: a list of quoted texts between brackets.
-/

namespace CommentProse.Text

/-- The digits of a number to base sixteen, in lower case. -/
def hex (n : Nat) : String := String.ofList (Nat.toDigits 16 n)

/-- A character inside quotation marks. -/
def escapeChar (c : Char) : String :=
  match c with
  | '"' => "\\\""
  | '\\' => "\\\\"
  | '\t' => "\\t"
  | '\r' => "\\r"
  | '\n' => "\\n"
  | '\x00' => "\\0"
  | _ => if isPrintable c then String.singleton c else "\\u\x7b" ++ hex c.toNat ++ "\x7d"

/-- A text between quotation marks. -/
def quoted (s : String) : String := "\"" ++ String.join (s.toList.map escapeChar) ++ "\""

/-- A path between quotation marks. -/
def quotedPath (s : String) : String :=
  "\"" ++ String.join (s.toList.map fun c => if c = '\'' then "\\'" else escapeChar c) ++ "\""

/-- Quoted texts between brackets. -/
def quotedList (xs : List String) : String := "[" ++ ", ".intercalate (xs.map quoted) ++ "]"

end CommentProse.Text
