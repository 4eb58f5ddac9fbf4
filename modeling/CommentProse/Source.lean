import CommentProse.Kotlin.Scan
import CommentProse.Text.Quoted

/-!
Where comments come from.

* `SourceError`: why there are no comments, and `SourceError.message` its text;
* `CommentSource`: the comments of a text, or such an error;
* `CommentQuery`: which comments of a Kotlin text are asked for, under which name;
  `CommentQuery.build` picks the first kind that there is.
-/

namespace CommentProse

/-- Why a source has no comments to give. -/
inductive SourceError where
  | noCommentKind (kinds : List String)
  | badCapture (query : String)
  | noTree
  | locked
deriving DecidableEq, Repr

/-- The text of an error. -/
def SourceError.message : SourceError → String
  | .noCommentKind kinds =>
    "grammar defines none of the comment node kinds " ++ Text.quotedList kinds
  | .badCapture query => "invalid comment query: " ++ query
  | .noTree => "parser produced no tree"
  | .locked => "parser lock poisoned"

/-- A source gives the comments of a text, in any order and perhaps repeated, or fails. -/
abbrev CommentSource := String → Except SourceError (List Comment)

namespace Kotlin

/-- The name of a kind of comment in a query. -/
def CommentKind.name : CommentKind → String
  | .block => "block_comment"
  | .line => "line_comment"

/-- The kind of comment of a name. -/
def CommentKind.ofName? (s : String) : Option CommentKind :=
  if s = CommentKind.block.name then some .block
  else if s = CommentKind.line.name then some .line
  else none

end Kotlin

/-- Asks for the comments of one kind, captured under a name. -/
structure CommentQuery where
  kind : Kotlin.CommentKind
  capture : String
deriving DecidableEq, Repr

namespace CommentQuery

/-- The kinds that stand for block comments. -/
def blockKinds : List String := ["multiline_comment", "block_comment"]

/-- The name that comments are captured under. -/
def defaultCapture : String := "comment"

/-- The name of the language that the comments are in. -/
def language : String := "kotlin"

/-- The text of a query. -/
def text (q : CommentQuery) : String := "(" ++ q.kind.name ++ ") @" ++ q.capture

/-- A character that a capture name may begin with. -/
def beginsCapture (c : Char) : Bool := c.isAlphanum || c = '_' || c = '-' || 0x80 ≤ c.toNat

/-- A character of a capture name. -/
def continuesCapture (c : Char) : Bool := beginsCapture c || c = '.' || c = '?' || c = '!'

/-- A name that comments can be captured under. -/
def isCapture (s : String) : Bool :=
  match s.toList with
  | [] => false
  | c :: cs => beginsCapture c && cs.all continuesCapture

/-- The query for the first of some kinds that there is. -/
def build (kinds : List String) (capture : String) : Except SourceError CommentQuery :=
  match kinds.findSome? Kotlin.CommentKind.ofName? with
  | none => .error (.noCommentKind kinds)
  | some kind =>
    let query : CommentQuery := ⟨kind, capture⟩
    if isCapture capture then .ok query else .error (.badCapture query.text)

/-- The comments that a query asks for. -/
def source (q : CommentQuery) : CommentSource := fun text => .ok (Kotlin.comments q.kind text)

end CommentQuery

/-- The block comments of a Kotlin text. -/
def kotlinSource : CommentSource := fun text => .ok (Kotlin.comments .block text)

end CommentProse
