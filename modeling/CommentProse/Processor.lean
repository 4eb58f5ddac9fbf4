import CommentProse.Document.Check
import CommentProse.Message
import CommentProse.Source

/-!
Processors stand between a text and a linter.

* `Processor`: a name, the extensions it takes, and how it turns a text into a document;
* `Processor.kdoc`: the documentation comments of a source of comments;
* `Processor.postProcess`: the linter's findings for one file, unchanged.
-/

namespace CommentProse

/-- Turns a text into a document, and names the file that findings belong to. -/
structure Processor where
  name : String
  extensions : List String
  defaultPath : String
  preProcess : String → Except SourceError Document

/-- Findings for one file. -/
structure PostProcessed where
  messages : List LintMessage
  filePath : String
deriving DecidableEq, Repr

namespace Processor

/-- The document of a text by the comments of a source. -/
def documentOf (source : CommentSource) (text : String) : Except SourceError Document :=
  (source text).map fun comments => Document.ofComments (Comment.ordered comments) text

/-- The extensions of Kotlin files and scripts. -/
def kotlinExtensions : List String := [".kt", ".kts"]

/-- The path that stands for a Kotlin text without a file. -/
def kotlinPath : String := "<kotlin>"

/-- The processor for the documentation comments of a source. -/
def kdoc (source : CommentSource) : Processor where
  name := "kdoc"
  extensions := kotlinExtensions
  defaultPath := kotlinPath
  preProcess := documentOf source

/-- The processor for the documentation comments of Kotlin texts. -/
def kotlin : Processor := kdoc kotlinSource

/-- The same processor with another path for texts without a file. -/
def withDefaultPath (p : Processor) (path : String) : Processor := { p with defaultPath := path }

/-- The findings of the linter, with the path of their file. -/
def postProcess (p : Processor) (messages : List LintMessage) (filePath : Option String) :
    PostProcessed :=
  ⟨messages, filePath.getD p.defaultPath⟩

end Processor

end CommentProse
