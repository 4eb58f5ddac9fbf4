/-!
Where a piece of text lies.

* `ByteRange`: half-open range of byte offsets;
* `Point` and `Cursor`: row and column counted from zero, and the offset beside them;
* `Position`, `Location`: line counted from one, column from zero, for readers of a report.
-/

namespace CommentProse

/-- The byte offsets `[start, stop)` of a text. -/
structure ByteRange where
  start : Nat
  stop : Nat
deriving DecidableEq, Repr

namespace ByteRange

/-- The range `a` holds all of the range `b`. -/
def contains (a b : ByteRange) : Bool := a.start ≤ b.start && b.stop ≤ a.stop

/-- A range whose ends meet. -/
def isEmpty (a : ByteRange) : Bool := a.start == a.stop

end ByteRange

/-- A place counted from zero: line feeds before it, and bytes since the last of them. -/
structure Point where
  row : Nat
  column : Nat
deriving DecidableEq, Repr

/-- A place in a text by byte offset, row and column. -/
structure Cursor where
  offset : Nat
  point : Point
deriving DecidableEq, Repr

namespace Cursor

/-- The beginning of a text. -/
def origin : Cursor := ⟨0, ⟨0, 0⟩⟩

/-- The place after one more character. -/
def advance (p : Cursor) (c : Char) : Cursor where
  offset := p.offset + c.utf8Size
  point :=
    if c = '\n' then ⟨p.point.row + 1, 0⟩ else ⟨p.point.row, p.point.column + c.utf8Size⟩

end Cursor

/-- A place in a report: lines count from one and columns from zero. -/
structure Position where
  line : Nat
  column : Nat
deriving DecidableEq, Repr

namespace Position

/-- Earlier in the text, or the same place. -/
def le (a b : Position) : Bool := a.line < b.line || (a.line == b.line && a.column ≤ b.column)

/-- A position as `line:column`. -/
def text (p : Position) : String := toString p.line ++ ":" ++ toString p.column

end Position

/-- The positions of the two ends of a piece of text. -/
structure Location where
  start : Position
  stop : Position
deriving DecidableEq, Repr

end CommentProse
