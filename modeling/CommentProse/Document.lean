import CommentProse.Comment

/-!
The document tree: a document holds paragraphs, one for each documentation comment, and a
paragraph holds its prose.

* `Prose`, `Paragraph`, `Document`: the three kinds of node;
* `Prose.ofComment`, `Paragraph.ofComment?`, `Document.ofComments`: the nodes of comments;
* `Document.spanning`: a document from the start of its first paragraph to the end of its last.

Each kind of node is a type of its own. A node has no field for its kind, which could be set to
another one; where the kind is told, it is the `NodeKind` of the type.
-/

namespace CommentProse

/-- The leaf of the tree: the prose of one comment. -/
structure Prose where
  value : String
  raw : String
  range : ByteRange
  loc : Location
deriving DecidableEq, Repr

/-- One documentation comment. -/
structure Paragraph where
  raw : String
  range : ByteRange
  loc : Location
  content : Prose
deriving DecidableEq, Repr

/-- The documentation of one text. -/
structure Document where
  raw : String
  range : ByteRange
  loc : Location
  paragraphs : List Paragraph
deriving DecidableEq, Repr

namespace Prose

/-- A leaf whose raw text is its value. -/
def ofValue (value : String) (range : ByteRange) (loc : Location) : Prose :=
  ⟨value, value, range, loc⟩

/-- The prose of a comment: it begins after the opener and ends with the comment. -/
def ofComment (c : Comment) : Prose :=
  ofValue (prose c.text) ⟨c.range.start + openerLength, c.range.stop⟩
    { start := ⟨c.startPoint.row + 1, c.startPoint.column + openerLength⟩
      stop := ⟨c.endPoint.row + 1, c.endPoint.column⟩ }

end Prose

namespace Paragraph

/-- A paragraph around its prose, with the span of the prose. -/
def around (raw : String) (content : Prose) : Paragraph :=
  ⟨raw, content.range, content.loc, content⟩

/-- The paragraph of a documentation comment. -/
def ofComment? (c : Comment) : Option Paragraph :=
  if c.isDoc then some (around c.text (Prose.ofComment c)) else none

end Paragraph

namespace Document

/-- A document without paragraphs, at the beginning of its text. -/
def empty (raw : String) : Document := ⟨raw, ⟨0, 0⟩, ⟨⟨1, 0⟩, ⟨1, 0⟩⟩, []⟩

/-- A document that reaches from its first paragraph's start to its last one's end. -/
def spanning (raw : String) (paragraphs : List Paragraph) : Document :=
  match paragraphs.head?, paragraphs.getLast? with
  | some first, some last =>
    { raw
      range := ⟨first.range.start, last.range.stop⟩
      loc := ⟨first.loc.start, last.loc.stop⟩
      paragraphs }
  | _, _ => empty raw

/-- The document of some comments of a text, in the order given. -/
def ofComments (comments : List Comment) (raw : String) : Document :=
  spanning raw (comments.filterMap Paragraph.ofComment?)

/-- No paragraphs. -/
def isEmpty (d : Document) : Bool := d.paragraphs.isEmpty

/-- The prose of each paragraph. -/
def texts (d : Document) : List String := d.paragraphs.map (·.content.value)

end Document

end CommentProse
