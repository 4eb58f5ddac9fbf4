import CommentProse.Document

/-!
Is a document tree consistent?

* `Defect`: what can be wrong with a tree, and `Defect.message` its text;
* `Document.check`: the first defect of a document.

The document comes first and then each paragraph in order: its own span, that it lies within the
document and the text, that it does not begin before the one before it ends, and that its prose
has the same span.
-/

namespace CommentProse

/-- The kinds of node of a tree. -/
inductive NodeKind where
  | document
  | paragraph
  | prose
deriving DecidableEq, Repr

/-- The name of a kind of node in reports. -/
def NodeKind.name : NodeKind → String
  | .document => "Document"
  | .paragraph => "Paragraph"
  | .prose => "Str"

/-- What can be wrong with a tree. -/
inductive Defect where
  | invertedRange (node : NodeKind) (range : ByteRange)
  | zeroLine (node : NodeKind)
  | invertedLocation (node : NodeKind) (loc : Location)
  | outOfParent (child : NodeKind) (childRange : ByteRange) (parent : NodeKind)
      (parentRange : ByteRange)
  | outOfSource (range : ByteRange) (length : Nat)
  | unordered (index start previousEnd : Nat)
  | spanMismatch (index : Nat)
deriving DecidableEq, Repr

/-- A range as `[start, stop)`. -/
def ByteRange.text (r : ByteRange) : String :=
  "[" ++ toString r.start ++ ", " ++ toString r.stop ++ ")"

/-- The text of a defect. -/
def Defect.message : Defect → String
  | .invertedRange node range => node.name ++ " range " ++ range.text ++ " is inverted"
  | .zeroLine node => node.name ++ " location uses line 0; lines are 1-indexed"
  | .invertedLocation node loc =>
    node.name ++ " location " ++ loc.start.text ++ " -> " ++ loc.stop.text ++ " is inverted"
  | .outOfParent child childRange parent parentRange =>
    child.name ++ " " ++ childRange.text ++ " escapes parent " ++ parent.name ++ " "
      ++ parentRange.text
  | .outOfSource range length =>
    "range " ++ range.text ++ " exceeds source length " ++ toString length
  | .unordered index start previousEnd =>
    "paragraph " ++ toString index ++ " starts at " ++ toString start
      ++ ", before the previous paragraph ends at " ++ toString previousEnd
  | .spanMismatch index =>
    "paragraph " ++ toString index ++ " span differs from its content node"

/-- Fails with a defect unless a condition holds. -/
def Defect.unless (ok : Bool) (defect : Defect) : Except Defect Unit :=
  if ok then .ok () else .error defect

/-- A node's own span: the range is ordered, lines count from one, the location is ordered. -/
def checkSpan (node : NodeKind) (range : ByteRange) (loc : Location) : Except Defect Unit := do
  Defect.unless (range.start ≤ range.stop) (.invertedRange node range)
  Defect.unless (loc.start.line != 0 && loc.stop.line != 0) (.zeroLine node)
  Defect.unless (loc.start.le loc.stop) (.invertedLocation node loc)

/-- A child lies within its parent. -/
def checkWithin (child : NodeKind) (childRange : ByteRange) (parent : NodeKind)
    (parentRange : ByteRange) : Except Defect Unit :=
  Defect.unless (parentRange.contains childRange)
    (.outOfParent child childRange parent parentRange)

/-- The paragraph at an index, in a document of that range and byte length, after a paragraph that
ends at `previousEnd` (zero before the first). -/
def Paragraph.check (range : ByteRange) (length index previousEnd : Nat) (p : Paragraph) :
    Except Defect Unit := do
  checkSpan .paragraph p.range p.loc
  checkWithin .paragraph p.range .document range
  Defect.unless (p.range.stop ≤ length) (.outOfSource p.range length)
  Defect.unless (previousEnd ≤ p.range.start) (.unordered index p.range.start previousEnd)
  checkSpan .prose p.content.range p.content.loc
  checkWithin .prose p.content.range .paragraph p.range
  Defect.unless (p.content.range = p.range && p.content.loc = p.loc) (.spanMismatch index)

/-- The paragraphs from an index on. -/
def checkParagraphs (range : ByteRange) (length : Nat) :
    Nat → Nat → List Paragraph → Except Defect Unit
  | _, _, [] => .ok ()
  | index, previousEnd, p :: ps => do
    p.check range length index previousEnd
    checkParagraphs range length (index + 1) p.range.stop ps

/-- The first defect of a document, if there is one. -/
def Document.check (d : Document) : Except Defect Unit := do
  checkSpan .document d.range d.loc
  checkParagraphs d.range (Text.byteLength d.raw.toList) 0 0 d.paragraphs

end CommentProse
