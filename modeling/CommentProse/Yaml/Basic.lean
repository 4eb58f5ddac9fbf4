/-!
Places, characters and tokens of YAML texts.

* `Mark`: a place by index, line and column, all counted from zero;
* `Fault`, `Failure`: why a text cannot be read, and where;
* `Token`: the parts that a text consists of.

Anchors, aliases, tags and directives are not part of the language that is read here.
-/

namespace CommentProse.Yaml

/-- A place in a text, in characters. -/
structure Mark where
  index : Nat
  line : Nat
  column : Nat
deriving DecidableEq, Repr

namespace Mark

/-- The beginning of a text. -/
def origin : Mark := ⟨0, 0, 0⟩

/-- After so many characters of the same line. -/
def skip (m : Mark) (n : Nat) : Mark := { m with index := m.index + n, column := m.column + n }

/-- After a line break of so many characters. -/
def newLine (m : Mark) (n : Nat) : Mark := ⟨m.index + n, m.line + 1, 0⟩

/-- A place as a reader counts it. -/
def text (m : Mark) : String :=
  "line " ++ toString (m.line + 1) ++ " column " ++ toString (m.column + 1)

end Mark

/-- Why a text cannot be read. -/
inductive Fault where
  | controlCharacter
  | unexpectedCharacter
  | unexpectedEnd
  | documentIndicator
  | unknownEscape
  | badEscape
  | badBlockHeader
  | tabIndentation
  | missingColon
  | unexpectedColon
  | misplacedEntry
  | misplacedKey
  | misplacedValue
  | unexpectedToken
  | extraDocument
  | tooDeep
deriving DecidableEq, Repr

/-- The text of a fault. -/
def Fault.detail : Fault → String
  | .controlCharacter => "control characters are not allowed"
  | .unexpectedCharacter => "found character that cannot start any token"
  | .unexpectedEnd => "found unexpected end of stream"
  | .documentIndicator => "found unexpected document indicator"
  | .unknownEscape => "found unknown escape character"
  | .badEscape => "found invalid character escape"
  | .badBlockHeader => "did not find expected comment or line break"
  | .tabIndentation => "found a tab character where indentation is expected"
  | .missingColon => "could not find expected ':'"
  | .unexpectedColon => "found unexpected ':'"
  | .misplacedEntry => "block sequence entries are not allowed in this context"
  | .misplacedKey => "mapping keys are not allowed in this context"
  | .misplacedValue => "mapping values are not allowed in this context"
  | .unexpectedToken => "did not find expected node content"
  | .extraDocument => "expected a single document in the stream"
  | .tooDeep => "recursion limit exceeded"

/-- A fault at a place. -/
structure Failure where
  fault : Fault
  mark : Mark
deriving DecidableEq, Repr

/-- The text of a failure. -/
def Failure.message (f : Failure) : String := f.fault.detail ++ " at " ++ f.mark.text

/-- Fails with a fault at a place. -/
def fail {α : Type} (fault : Fault) (mark : Mark) : Except Failure α := .error ⟨fault, mark⟩

/-! ### Characters -/

/-- A space or a tab. -/
def isBlank (c : Char) : Bool := c = ' ' || c = '\t'

/-- A character that breaks lines. -/
def isBreak (c : Char) : Bool :=
  c = '\r' || c = '\n' || c = '\u0085' || c = '\u2028' || c = '\u2029'

/-- A blank or a line break. -/
def isSpace (c : Char) : Bool := isBlank c || isBreak c

/-- The end of the text, a blank or a line break comes next. -/
def endsWord (cs : List Char) : Bool :=
  match cs with
  | [] => true
  | c :: _ => isSpace c

/-- The text of a line break: a line feed, unless it is a separator of lines or paragraphs. -/
def breakText (c : Char) : Char := if c = '\u2028' || c = '\u2029' then c else '\n'

/-- A character that may stand in a text. -/
def isAllowed (c : Char) : Bool :=
  let n := c.toNat
  n = 0x9 || n = 0xA || n = 0xD || (0x20 ≤ n && n ≤ 0x7E) || n = 0x85
    || (0xA0 ≤ n && n ≤ 0xD7FF) || (0xE000 ≤ n && n ≤ 0xFFFD) || 0x10000 ≤ n

/-- A line of three hyphens or three dots, which begins or ends a document. -/
def isDocumentIndicator : List Char → Bool
  | '-' :: '-' :: '-' :: cs => endsWord cs
  | '.' :: '.' :: '.' :: cs => endsWord cs
  | _ => false

/-! ### Tokens -/

/-- How a scalar is written. -/
inductive Style where
  | plain
  | single
  | double
  | literal
  | folded
deriving DecidableEq, Repr

/-- The kinds of token. -/
inductive TokenKind where
  | streamEnd
  | documentStart
  | documentEnd
  | blockSequenceStart
  | blockMappingStart
  | blockEnd
  | flowSequenceStart
  | flowSequenceEnd
  | flowMappingStart
  | flowMappingEnd
  | flowEntry
  | blockEntry
  | key
  | value
  | scalar (text : String) (style : Style)
deriving DecidableEq, Repr

/-- A token and where it starts. -/
structure Token where
  kind : TokenKind
  mark : Mark
deriving DecidableEq, Repr

end CommentProse.Yaml
