import CommentProse.Glob
import CommentProse.Text.Bytes

/-!
Patterns from their texts.

* `Glob.Fault`: why a text is no pattern, and `Glob.Fault.detail` its text;
* `Glob.parse`: the tokens of a text;
* `Glob.matchesText`: a pattern, by its text, matches a path.
-/

namespace CommentProse.Glob

/-- Why a text is no pattern. -/
inductive Fault where
  | unclosedClass
  | invalidRange (low high : Char)
  | unopenedGroup
  | unclosedGroup
  | danglingEscape
deriving DecidableEq, Repr

/-- The text of a fault. -/
def Fault.detail : Fault → String
  | .unclosedClass => "unclosed character class; missing ']'"
  | .invalidRange low high =>
    "invalid range; '" ++ String.singleton low ++ "' > '" ++ String.singleton high ++ "'"
  | .unopenedGroup =>
    "unopened alternate group; missing '\x7b' (maybe escape '\x7d' with '[\x7d]'?)"
  | .unclosedGroup =>
    "unclosed alternate group; missing '\x7d' (maybe escape '\x7b' with '[\x7b]'?)"
  | .danglingEscape => "dangling '\\'"

/-- The text of a fault in a pattern. -/
def Fault.message (pattern : String) (fault : Fault) : String :=
  "error parsing glob '" ++ pattern ++ "': " ++ fault.detail

/-- A group that is still open: the tokens before it, and its finished branches, in reverse. -/
structure OpenGroup where
  before : List Token
  branches : List (List Token)

/-- A character class that is still open. -/
structure OpenClass where
  negated : Bool
  /-- The ranges so far, in reverse. -/
  ranges : List (Char × Char)
  /-- No character of the class has been read. -/
  first : Bool
  /-- The last character was a hyphen that joins two ends. -/
  joining : Bool

/-- What has been read of a pattern: the last character, the open groups with the innermost first,
and the tokens of the present branch in reverse. -/
structure Reading where
  last : Option Char
  groups : List OpenGroup
  tokens : List Token

namespace Reading

/-- Nothing read. -/
def init : Reading := ⟨none, [], []⟩

/-- After a character that stands for a token. -/
def push (r : Reading) (c : Char) (t : Token) : Reading :=
  { r with last := some c, tokens := t :: r.tokens }

/-- Inside a group. -/
def inGroup (r : Reading) : Bool := !r.groups.isEmpty

end Reading

/-- A branch that stands for nothing: all its tokens are empty groups. -/
def isVoid (branch : List Token) : Bool :=
  branch.all fun t =>
    match t with
    | .group [] => true
    | _ => false

/-- Closes the innermost group; branches that stand for nothing are left out. -/
def Reading.close (r : Reading) : Except Fault Reading :=
  match r.groups with
  | [] => .error .unopenedGroup
  | g :: groups =>
    let branches := (r.tokens.reverse :: g.branches).reverse
    let group := Token.group (branches.filter fun b => !isVoid b)
    .ok ⟨some '\x7d', groups, group :: g.before⟩

/-- A comma: the next branch of a group, and outside of groups itself. -/
def Reading.comma (r : Reading) : Reading :=
  match r.groups with
  | [] => r.push ',' (.literal ',')
  | g :: groups =>
    ⟨some ',', { g with branches := r.tokens.reverse :: g.branches } :: groups, []⟩

/-- The meaning of `**`, by what comes before and after it. -/
inductive DoubleStar where
  /-- Two stars that mean no more than one. -/
  | stars
  /-- Directories at the start, with the slash after them. -/
  | leading
  /-- Directories between two slashes, in place of the token before. -/
  | inner
  /-- Everything below, in place of the token before. -/
  | trailing
deriving DecidableEq, Repr

/-- The meaning of `**` before the character `next`. -/
def Reading.doubleStar (r : Reading) (next : Option Char) : DoubleStar :=
  if r.tokens.isEmpty then
    if next = none ∨ next = some '/' then .leading else .stars
  else if r.last = some '/' ∨ (r.inGroup ∧ (r.last = some ',' ∨ r.last = some '\x7b')) then
    if next = none then .trailing
    else if next = some '/' then .inner
    else if r.inGroup ∧ (next = some ',' ∨ next = some '\x7d') then .trailing
    else .stars
  else .stars

/-- Directories in place of the token before, unless that stands for directories already. -/
def absorb (dirs : Token) : List Token → List Token
  | .leadingDirs :: ts => .leadingDirs :: ts
  | .trailingDirs :: ts => .trailingDirs :: ts
  | _ :: ts => dirs :: ts
  | [] => [dirs]

/-- After `**` of some meaning; a slash after it belongs to directories at the start and between. -/
def Reading.afterDoubleStar (r : Reading) : DoubleStar → Reading
  | .stars => { r with last := some '*', tokens := .star :: .star :: r.tokens }
  | .leading => { r with last := some '/', tokens := .leadingDirs :: r.tokens }
  | .inner => { r with last := some '/', tokens := absorb .innerDirs r.tokens }
  | .trailing => { r with last := some '*', tokens := absorb .trailingDirs r.tokens }

/-- A `**` of this meaning takes the slash after it. -/
def DoubleStar.takesSlash : DoubleStar → Bool
  | .leading => true
  | .inner => true
  | _ => false

/-- A class that has just been opened. -/
def OpenClass.init (negated : Bool) : OpenClass := ⟨negated, [], true, false⟩

/-- Makes a character the upper end of the last range. -/
def OpenClass.raise (k : OpenClass) (c : Char) : Except Fault OpenClass :=
  match k.ranges with
  | [] => .ok { k with ranges := [(c, c)], first := false, joining := false }
  | (low, _) :: rs =>
    if c < low then .error (.invalidRange low c)
    else .ok { k with ranges := (low, c) :: rs, first := false, joining := false }

/-- A character of a class other than the bracket that closes it. -/
def OpenClass.add (k : OpenClass) (c : Char) : Except Fault OpenClass :=
  if k.joining then k.raise c
  else if c = '-' ∧ !k.first then .ok { k with joining := true }
  else .ok { k with ranges := (c, c) :: k.ranges, first := false }

/-- The token of a class; a hyphen that joins nothing stands for itself. -/
def OpenClass.token (k : OpenClass) : Token :=
  .range k.negated (if k.joining then ('-', '-') :: k.ranges else k.ranges).reverse

/-- Reads the rest of a pattern, inside a class if one is open. -/
def parseFrom (r : Reading) : Option OpenClass → List Char → Except Fault (List Token)
  | some _, [] => .error .unclosedClass
  | some k, c :: cs =>
    if c = ']' ∧ !k.first then parseFrom (r.push ']' k.token) none cs
    else
      match k.add c with
      | .error e => .error e
      | .ok k => parseFrom r (some k) cs
  | none, [] => if r.inGroup then .error .unclosedGroup else .ok r.tokens.reverse
  | none, '\\' :: cs =>
    match cs with
    | [] => .error .danglingEscape
    | c :: cs => parseFrom (r.push c (.literal c)) none cs
  | none, '*' :: cs =>
    match cs with
    | '*' :: cs =>
      match cs with
      | '/' :: cs =>
        let d := r.doubleStar (some '/')
        let r := r.afterDoubleStar d
        parseFrom (if d.takesSlash then r else r.push '/' (.literal '/')) none cs
      | cs => parseFrom (r.afterDoubleStar (r.doubleStar cs.head?)) none cs
    | cs => parseFrom (r.push '*' .star) none cs
  | none, '[' :: cs =>
    match cs with
    | '!' :: cs => parseFrom r (some (OpenClass.init true)) cs
    | '^' :: cs => parseFrom r (some (OpenClass.init true)) cs
    | cs => parseFrom r (some (OpenClass.init false)) cs
  | none, '\x7b' :: cs => parseFrom ⟨some '\x7b', ⟨r.tokens, []⟩ :: r.groups, []⟩ none cs
  | none, '\x7d' :: cs =>
    match r.close with
    | .error e => .error e
    | .ok r => parseFrom r none cs
  | none, ',' :: cs => parseFrom r.comma none cs
  | none, '?' :: cs => parseFrom (r.push '?' .any) none cs
  | none, c :: cs => parseFrom (r.push c (.literal c)) none cs

/-- The tokens of a pattern. -/
def parse (pattern : String) : Except Fault (List Token) :=
  parseFrom Reading.init none pattern.toList

/-- A pattern matches a path; a text that is no pattern matches none. -/
def matchesText (pattern path : String) : Bool :=
  match parse pattern with
  | .ok tokens => matchesTokens tokens (Text.bytes path.toList)
  | .error _ => false

end CommentProse.Glob
