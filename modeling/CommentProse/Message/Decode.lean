import CommentProse.Message
import CommentProse.Text.Quoted

/-!
Findings from JSON values.

* `DecodeError`: why a value is no finding, and `DecodeError.message` its text;
* `LintMessage.ofJson`: a finding from an object, or from an array of its six fields in order;
* `LintMessage.listOfJson`: a list of findings.

The members of an object are read by ascending name, and the first bad value is reported; a member
that is missing is reported only when all others are good. Members of other names are ignored.
-/

namespace CommentProse

/-- What a part of a finding has to be. -/
inductive Expected where
  | string
  | number
  | severity
  | nothing
  | message
  | messages
deriving DecidableEq, Repr

/-- What is expected, for an error text. -/
def Expected.text : Expected → String
  | .string => "a string"
  | .number => "usize"
  | .severity => "string or map"
  | .nothing => "unit"
  | .message => "struct LintMessage"
  | .messages => "a sequence"

/-- Why a JSON value is no finding. -/
inductive DecodeError where
  | wrongType (found : Json) (expected : Expected)
  | negative (n : Int)
  | missingField (name : String)
  | tooShort (length : Nat)
  | tooLong (length : Nat)
  | unknownSeverity (name : String)
  | severityMembers

/-- What a value is, for an error text. -/
def Json.describe : Json → String
  | .null => "null"
  | .bool b => "boolean `" ++ (if b then "true" else "false") ++ "`"
  | .int n => "integer `" ++ toString n ++ "`"
  | .float x => "floating point `" ++ x.text ++ "`"
  | .str s => "string " ++ Text.quoted s
  | .arr _ => "sequence"
  | .obj _ => "map"

/-- The text of an error. -/
def DecodeError.message : DecodeError → String
  | .wrongType found expected =>
    "invalid type: " ++ found.describe ++ ", expected " ++ expected.text
  | .negative n =>
    "invalid value: integer `" ++ toString n ++ "`, expected " ++ Expected.number.text
  | .missingField name => "missing field `" ++ name ++ "`"
  | .tooShort length =>
    "invalid length " ++ toString length ++ ", expected " ++ Expected.message.text
      ++ " with 6 elements"
  | .tooLong length =>
    "invalid length " ++ toString length ++ ", expected fewer elements in array"
  | .unknownSeverity name =>
    "unknown variant `" ++ name ++ "`, expected one of `info`, `warning`, `error`"
  | .severityMembers => "invalid value: map, expected map with a single key"

namespace Json

/-- A string. -/
def asString : Json → Except DecodeError String
  | .str s => .ok s
  | j => .error (.wrongType j .string)

/-- A number of at most 64 bits that is not negative. -/
def asNat : Json → Except DecodeError Nat
  | .int n => if n < 0 then .error (.negative n) else .ok n.toNat
  | j => .error (.wrongType j .number)

end Json

namespace Severity

/-- The severity of a word, or an error. -/
def ofName (s : String) : Except DecodeError Severity :=
  match ofName? s with
  | some v => .ok v
  | none => .error (.unknownSeverity s)

/-- A severity: its word, or an object with that word as its only name and null as the value. -/
def ofJson : Json → Except DecodeError Severity
  | .str s => ofName s
  | .obj members =>
    match Json.sortedMembers members with
    | [(name, value)] => do
      let severity ← ofName name
      match value with
      | .null => pure severity
      | other => .error (.wrongType other .nothing)
    | _ => .error .severityMembers
  | j => .error (.wrongType j .severity)

end Severity

namespace LintMessage

/-- The fields of a finding that were read so far. -/
structure Fields where
  ruleId : Option String := none
  message : Option String := none
  index : Option Nat := none
  line : Option Nat := none
  column : Option Nat := none
  severity : Option Severity := none

/-- Reads one member of an object. -/
def Fields.read (p : Fields) (member : String × Json) : Except DecodeError Fields :=
  match member.1 with
  | "ruleId" => member.2.asString.map fun v => { p with ruleId := some v }
  | "message" => member.2.asString.map fun v => { p with message := some v }
  | "index" => member.2.asNat.map fun v => { p with index := some v }
  | "line" => member.2.asNat.map fun v => { p with line := some v }
  | "column" => member.2.asNat.map fun v => { p with column := some v }
  | "severity" => (Severity.ofJson member.2).map fun v => { p with severity := some v }
  | _ => .ok p

/-- A field that must be there. -/
def Fields.require {α : Type} (name : String) : Option α → Except DecodeError α
  | some v => .ok v
  | none => .error (.missingField name)

/-- The finding of fields that are all there. -/
def Fields.finish (p : Fields) : Except DecodeError LintMessage := do
  let ruleId ← require "ruleId" p.ruleId
  let message ← require "message" p.message
  let index ← require "index" p.index
  let line ← require "line" p.line
  let column ← require "column" p.column
  let severity ← require "severity" p.severity
  pure { ruleId, message, index, line, column, severity }

/-- The next field of an array, of which `position` have been read. -/
def nextField {α : Type} (position : Nat) (read : Json → Except DecodeError α) :
    List Json → Except DecodeError (α × List Json)
  | [] => .error (.tooShort position)
  | j :: js => (read j).map fun v => (v, js)

/-- A finding from its six fields in order. -/
def ofFields (fields : List Json) : Except DecodeError LintMessage := do
  let (ruleId, rest) ← nextField 0 Json.asString fields
  let (message, rest) ← nextField 1 Json.asString rest
  let (index, rest) ← nextField 2 Json.asNat rest
  let (line, rest) ← nextField 3 Json.asNat rest
  let (column, rest) ← nextField 4 Json.asNat rest
  let (severity, rest) ← nextField 5 Severity.ofJson rest
  if rest.isEmpty then pure { ruleId, message, index, line, column, severity }
  else .error (.tooLong fields.length)

/-- A finding from a JSON value. -/
def ofJson : Json → Except DecodeError LintMessage
  | .obj members => do
    let p ← (Json.sortedMembers members).foldlM Fields.read ({} : Fields)
    p.finish
  | .arr fields => ofFields fields
  | j => .error (.wrongType j .message)

/-- A list of findings from a JSON value; the first bad one is reported. -/
def listOfJson : Json → Except DecodeError (List LintMessage)
  | .arr items => items.mapM ofJson
  | j => .error (.wrongType j .messages)

end LintMessage

end CommentProse
