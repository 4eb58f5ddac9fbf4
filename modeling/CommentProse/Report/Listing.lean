import CommentProse.Report

/-!
Reports as a listing for a terminal.

* `Style`: how a word stands out, by an escape sequence before it and one after it;
* `FileReport.listing`: the file, each paragraph with its position and lines, each finding;
* `FileReport.listAll`: all files, and how many there are.
-/

namespace CommentProse

/-- How a word stands out. -/
inductive Style where
  | bold
  | dimmed
  | red
  | yellow
  | blue
  | cyan
deriving DecidableEq, Repr

namespace Style

/-- The number of a style in an escape sequence. -/
def code : Style → String
  | .bold => "1"
  | .dimmed => "2"
  | .red => "31"
  | .yellow => "33"
  | .blue => "34"
  | .cyan => "36"

/-- A text in a style, if there is colour at all. -/
def apply (color : Bool) (style : Style) (text : String) : String :=
  if color then "\x1b[" ++ style.code ++ "m" ++ text ++ "\x1b[0m" else text

end Style

/-- The style of a severity. -/
def Severity.style : Severity → Style
  | .error => .red
  | .warning => .yellow
  | .info => .blue

/-- A paragraph: the position of its prose, and the lines of it. -/
def Paragraph.listing (color : Bool) (p : Paragraph) : String :=
  "  " ++ Style.cyan.apply color p.content.loc.start.text ++ "\n"
    ++ (if p.content.value.isEmpty then "    " ++ Style.dimmed.apply color "(empty)" ++ "\n"
      else "")
    ++ String.join ((Text.shownLines p.content.value.toList).map fun line =>
      "    " ++ String.ofList line ++ "\n")

/-- A finding: severity, place, text and rule. -/
def LintMessage.listing (color : Bool) (m : LintMessage) : String :=
  "  " ++ m.severity.style.apply color m.severity.name ++ " " ++ toString m.line ++ ":"
    ++ toString m.column ++ " " ++ m.message ++ " [" ++ m.ruleId ++ "]\n"

namespace FileReport

/-- A file: its path, the number of its paragraphs, the paragraphs and the findings. -/
def listing (color : Bool) (r : FileReport) : String :=
  Style.bold.apply color r.filePath ++ " (" ++ toString r.document.paragraphs.length ++ " KDoc)\n"
    ++ String.join (r.document.paragraphs.map (Paragraph.listing color))
    ++ String.join (r.messages.map (LintMessage.listing color))

/-- The number of paragraphs of some files. -/
def paragraphCount (reports : List FileReport) : Nat :=
  reports.foldl (fun n r => n + r.document.paragraphs.length) 0

/-- The last line of a listing. -/
def summary (reports : List FileReport) : String :=
  "\n" ++ toString reports.length ++ " file(s), " ++ toString (paragraphCount reports)
    ++ " KDoc paragraph(s)\n"

/-- All files and the summary. -/
def listAll (color : Bool) (reports : List FileReport) : String :=
  String.join (reports.map (listing color)) ++ summary reports

end FileReport

end CommentProse
