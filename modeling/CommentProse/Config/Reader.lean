import CommentProse.Config
import CommentProse.Yaml.Node

/-!
Configurations from YAML texts.

* `Config.ReadError`: why a text is no configuration, and `Config.ReadError.message` its text;
* `Config.ofNode`: the configuration of a mapping;
* `Config.parse`: the configuration of a text;
* `Config.Reader`: any way to read configurations, of which `Config.yaml` is this one.

A key that is left out has its standard value, and other keys are ignored, but none of the three may
come twice. A switch is a plain `true` or `false`; any scalar is a text, as it is written; a list
that is not written at all is empty.

The YAML of these texts has neither anchors and aliases nor tags nor directives. All that is said
about runs of the program is said for any `Config.Reader`.
-/

namespace CommentProse.Config

/-- The truth value of a plain scalar. -/
def bool? (text : String) : Option Bool :=
  if text ∈ ["true", "True", "TRUE"] then some true
  else if text ∈ ["false", "False", "FALSE"] then some false
  else none

/-- A whole number, which has no zeros in front of it. -/
def isInteger (text : String) : Bool :=
  let digits := text.toList.dropWhile (· = '-')
  text.length ≤ digits.length + 1 && !digits.isEmpty && digits.all Char.isDigit
    && (digits.head? ≠ some '0' || text = "0")

/-- What a node is, for an error text. -/
def describe : Yaml.Node → String
  | .scalar text .plain _ =>
    if text ∈ ["", "~", "null", "Null", "NULL"] then "unit value"
    else
      match bool? text with
      | some b => "boolean `" ++ (if b then "true" else "false") ++ "`"
      | none =>
        if isInteger text then "integer `" ++ text ++ "`" else "string " ++ Text.quoted text
  | .scalar text _ _ => "string " ++ Text.quoted text
  | .sequence _ _ => "sequence"
  | .mapping _ _ => "map"

/-- What a part of a configuration has to be. -/
inductive Expected where
  | boolean
  | string
  | sequence
  | config
deriving DecidableEq, Repr

/-- What is expected, for an error text. -/
def Expected.text : Expected → String
  | .boolean => "a boolean"
  | .string => "a string"
  | .sequence => "a sequence"
  | .config => "struct Config"

/-- Why a text is no configuration. -/
inductive ReadError where
  | malformed (failure : Yaml.Failure)
  | wrongType (path : String) (found : Yaml.Node) (expected : Expected)
  | duplicate (field : String) (mark : Yaml.Mark)

/-- The text of an error. -/
def ReadError.message : ReadError → String
  | .malformed failure => failure.message
  | .wrongType path found expected =>
    (if path.isEmpty then "" else path ++ ": ") ++ "invalid type: " ++ describe found
      ++ ", expected " ++ expected.text ++ " at " ++ found.mark.text
  | .duplicate field mark => "duplicate field `" ++ field ++ "` at " ++ mark.text

/-- A switch. -/
def readBool (path : String) (node : Yaml.Node) : Except ReadError Bool :=
  match node with
  | .scalar text .plain _ =>
    match bool? text with
    | some b => .ok b
    | none => .error (.wrongType path node .boolean)
  | _ => .error (.wrongType path node .boolean)

/-- A text. -/
def readString (path : String) (node : Yaml.Node) : Except ReadError String :=
  match node with
  | .scalar text _ _ => .ok text
  | _ => .error (.wrongType path node .string)

/-- The texts of a list from an index on. -/
def readItems (path : String) : Nat → List Yaml.Node → Except ReadError (List String)
  | _, [] => .ok []
  | i, x :: xs => do
    let s ← readString (path ++ "[" ++ toString i ++ "]") x
    let rest ← readItems path (i + 1) xs
    pure (s :: rest)

/-- A list of texts. -/
def readStrings (path : String) (node : Yaml.Node) : Except ReadError (List String) :=
  match node with
  | .sequence items _ => readItems path 0 items
  | .scalar "" .plain _ => .ok []
  | _ => .error (.wrongType path node .sequence)

/-- The keys that have been read so far. -/
structure Fields where
  excludedPaths : Option (List String) := none
  includeEmpty : Option Bool := none
  defaultFilePath : Option String := none

namespace Fields

/-- A key that must not have been read before. -/
def fresh {α : Type} (name : String) (mark : Yaml.Mark) : Option α → Except ReadError Unit
  | none => .ok ()
  | some _ => .error (.duplicate name mark)

/-- Reads one pair of the mapping. -/
def read (f : Fields) (pair : Yaml.Node × Yaml.Node) : Except ReadError Fields := do
  let key ← readString "" pair.1
  match key with
  | "excluded_paths" =>
    fresh key pair.1.mark f.excludedPaths
    let v ← readStrings key pair.2
    pure { f with excludedPaths := some v }
  | "include_empty" =>
    fresh key pair.1.mark f.includeEmpty
    let v ← readBool key pair.2
    pure { f with includeEmpty := some v }
  | "default_file_path" =>
    fresh key pair.1.mark f.defaultFilePath
    let v ← readString key pair.2
    pure { f with defaultFilePath := some v }
  | _ => pure f

/-- The configuration of the keys read, with standard values for the others. -/
def config (f : Fields) : Config where
  excludedPaths := f.excludedPaths.getD standard.excludedPaths
  includeEmpty := f.includeEmpty.getD standard.includeEmpty
  defaultFilePath := f.defaultFilePath.getD standard.defaultFilePath

end Fields

/-- The configuration of a mapping, or of a node that is not written at all. -/
def ofNode (node : Yaml.Node) : Except ReadError Config :=
  match node with
  | .mapping pairs _ => (pairs.foldlM Fields.read ({} : Fields)).map Fields.config
  | .scalar "" .plain _ => .ok standard
  | _ => .error (.wrongType "" node .config)

/-- The configuration of a text; a blank text is the standard one. -/
def parse (text : String) : Except ReadError Config :=
  if (Text.trim text.toList).isEmpty then .ok standard
  else
    match Yaml.parse text with
    | .error failure => .error (.malformed failure)
    | .ok none => .ok standard
    | .ok (some node) => ofNode node

/-- A way to read configurations from texts: a configuration, or why there is none. -/
abbrev Reader := String → Except String Config

/-- The configurations of YAML texts. -/
def yaml : Reader := fun text => (parse text).mapError ReadError.message

end CommentProse.Config
