import CommentProse.Span
import CommentProse.Text.Blank
import CommentProse.Text.Bytes
import CommentProse.Text.Lines

/-!
Comments and the prose in them.

* `Comment`: a comment's text and where it lies;
* `Comment.isDoc`: documentation opens with `/**`, a banner with `/***`;
* `prose`: the text of a documentation comment without its delimiters and its column of stars;
* `Comment.ordered`: comments by start, the first report of each start kept.
-/

namespace CommentProse

/-- A comment as it was found: its text, the bytes it covers, and its two ends. -/
structure Comment where
  text : String
  range : ByteRange
  startPoint : Point
  endPoint : Point
deriving DecidableEq, Repr

/-- The number of bytes of the opening `/**`. -/
def openerLength : Nat := 3

/-- The number of bytes of the closing `*/`. -/
def closerLength : Nat := 2

/-- A documentation comment opens with `/**`; with one star more it is a banner. -/
def isDocText : List Char → Bool
  | '/' :: '*' :: '*' :: '*' :: _ => false
  | '/' :: '*' :: '*' :: _ => true
  | _ => false

/-- A documentation comment, judged by its opening characters only. -/
def Comment.isDoc (c : Comment) : Bool := isDocText c.text.toList

/-! ### The prose of a comment -/

/-- The text between opener and closer; nothing if it is too short for both, or if one of them
would end inside a character. -/
def innerText (cs : List Char) : List Char :=
  ((Text.dropBytes openerLength cs).bind (Text.dropBytesEnd closerLength)).getD []

/-- A text without the blank it may begin with. -/
def dropBlank : List Char → List Char
  | [] => []
  | c :: cs => if Text.isBlank c then cs else c :: cs

/-- A line without its decoration: indentation, one star, and one blank after the star. A line
whose first character that is not blank is no star stays as it is. -/
def stripLine (line : List Char) : List Char :=
  match Text.trimStart line with
  | '*' :: rest => dropBlank rest
  | _ => line

/-- The inner text with every line stripped of its decoration, and then trimmed. -/
def stripDecoration (inner : List Char) : List Char :=
  Text.trim (Text.joinLines ((Text.splitLines inner).map stripLine))

/-- The prose of a comment. -/
def prose (text : String) : String := String.ofList (stripDecoration (innerText text.toList))

/-! ### Order -/

/-- Puts a comment into a list that ascends by start, in place of one with the same start. -/
def Comment.insert (c : Comment) : List Comment → List Comment
  | [] => [c]
  | d :: ds =>
    if c.range.start < d.range.start then c :: d :: ds
    else if c.range.start = d.range.start then c :: ds
    else d :: Comment.insert c ds

/-- The comments by ascending start, and of those with one start the first reported. -/
def Comment.ordered (cs : List Comment) : List Comment := cs.foldr Comment.insert []

end CommentProse
