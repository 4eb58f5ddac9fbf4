import CommentProse.Json.Printer
import CommentProse.Report

/-!
Reports as JSON.

* `toJson` for positions, ranges, nodes and reports;
* `FileReport.render`: a list of reports as one JSON array, one member a line, and a line feed.
-/

namespace CommentProse

/-- A range as an array of its two ends. -/
def ByteRange.toJson (r : ByteRange) : Json := .arr [.nat r.start, .nat r.stop]

/-- A position as an object. -/
def Position.toJson (p : Position) : Json := .obj [("line", .nat p.line), ("column", .nat p.column)]

/-- A location as an object of its two ends. -/
def Location.toJson (l : Location) : Json :=
  .obj [("start", l.start.toJson), ("end", l.stop.toJson)]

/-- Prose as a node. -/
def Prose.toJson (p : Prose) : Json :=
  .obj [("type", .str NodeKind.prose.name), ("raw", .str p.raw), ("value", .str p.value),
    ("range", p.range.toJson), ("loc", p.loc.toJson)]

/-- A paragraph as a node with one child. -/
def Paragraph.toJson (p : Paragraph) : Json :=
  .obj [("type", .str NodeKind.paragraph.name), ("raw", .str p.raw), ("range", p.range.toJson),
    ("loc", p.loc.toJson), ("children", .arr [p.content.toJson])]

/-- A document as a node with its paragraphs as children. -/
def Document.toJson (d : Document) : Json :=
  .obj [("type", .str NodeKind.document.name), ("raw", .str d.raw), ("range", d.range.toJson),
    ("loc", d.loc.toJson), ("children", .arr (d.paragraphs.map Paragraph.toJson))]

/-- A report as an object. -/
def FileReport.toJson (r : FileReport) : Json :=
  .obj [("filePath", .str r.filePath), ("document", r.document.toJson),
    ("messages", .arr (r.messages.map LintMessage.toJson))]

/-- Reports as the text of one JSON array. -/
def FileReport.render (reports : List FileReport) : String :=
  (Json.arr (reports.map FileReport.toJson)).pretty ++ "\n"

end CommentProse
