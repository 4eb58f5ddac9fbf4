import CommentProse.Json

/-!
Findings of a linter about one text.

* `Severity`, `LintMessage`: a finding, where it is, and how grave;
* `LintMessage.toJson`: its JSON value.
-/

namespace CommentProse

/-- How grave a finding is. -/
inductive Severity where
  | info
  | warning
  | error
deriving DecidableEq, Repr

/-- The word for a severity. -/
def Severity.name : Severity → String
  | .info => "info"
  | .warning => "warning"
  | .error => "error"

/-- The severity of a word. -/
def Severity.ofName? (s : String) : Option Severity :=
  if s = "info" then some .info
  else if s = "warning" then some .warning
  else if s = "error" then some .error
  else none

/-- Every severity is read back from its word. -/
theorem Severity.ofName?_name (s : Severity) : Severity.ofName? s.name = some s := by
  cases s <;> rfl

/-- A finding: the rule it breaks, its text, its byte offset, line and column, its severity. -/
structure LintMessage where
  ruleId : String
  message : String
  index : Nat
  line : Nat
  column : Nat
  severity : Severity
deriving DecidableEq, Repr

/-- The JSON value of a finding. -/
def LintMessage.toJson (m : LintMessage) : Json :=
  .obj [("ruleId", .str m.ruleId), ("message", .str m.message), ("index", .nat m.index),
    ("line", .nat m.line), ("column", .nat m.column), ("severity", .str m.severity.name)]

end CommentProse
