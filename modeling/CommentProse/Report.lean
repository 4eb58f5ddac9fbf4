import CommentProse.Message
import CommentProse.Processor

/-!
The report on one file: its document and the findings about it.
-/

namespace CommentProse

/-- A file's document and findings. -/
structure FileReport where
  filePath : String
  document : Document
  messages : List LintMessage
deriving DecidableEq, Repr

namespace FileReport

/-- The report of a document with its findings. -/
def ofPostProcessed (document : Document) (post : PostProcessed) : FileReport :=
  ⟨post.filePath, document, post.messages⟩

/-- One of the findings is an error. -/
def hasErrors (r : FileReport) : Bool := r.messages.any (·.severity = .error)

/-- Nothing to tell: neither a paragraph nor a finding. -/
def isEmpty (r : FileReport) : Bool := r.document.isEmpty && r.messages.isEmpty

end FileReport

end CommentProse
