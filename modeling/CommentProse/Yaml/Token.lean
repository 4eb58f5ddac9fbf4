import CommentProse.Yaml.Scalar

/-!
The tokens of a YAML text.

* `Scanner`: the state of the pass: what is left, the tokens so far, the indentation of the open
  blocks, and where a key may have begun;
* `Scanner.next`: one more token, or several if blocks end before it;
* `tokens`: all tokens of a text.

In a block, a column to the right of the innermost block opens a new one, and a column to the left
of it closes it. A key is known only by the colon after it: then the token that marks keys goes in
front of the tokens read since.
-/

namespace CommentProse.Yaml

/-- A place where a key may have begun: after so many tokens, and whether nothing else may stand
there. -/
structure SimpleKey where
  position : Nat
  mark : Mark
  required : Bool
deriving DecidableEq, Repr

/-- The state of the pass. -/
structure Scanner where
  mark : Mark
  chars : List Char
  /-- The tokens so far, in reverse. -/
  tokens : List Token
  /-- The columns of the open blocks, the innermost first. -/
  indents : List Nat
  /-- The possible key at the present level of flow collections. -/
  key : Option SimpleKey
  /-- The possible keys of the levels around it. -/
  outerKeys : List (Option SimpleKey)
  /-- A key may begin here. -/
  keyAllowed : Bool

namespace Scanner

/-- The state at the beginning of a text. -/
def init (cs : List Char) : Scanner := ⟨Mark.origin, cs, [], [], none, [], true⟩

/-- Inside a flow collection. -/
def inFlow (s : Scanner) : Bool := !s.outerKeys.isEmpty

/-- The column of the innermost block; `-1` outside of blocks. -/
def indent (s : Scanner) : Int :=
  match s.indents with
  | [] => -1
  | n :: _ => n

/-- Adds a token. -/
def emit (s : Scanner) (kind : TokenKind) (mark : Mark) : Scanner :=
  { s with tokens := ⟨kind, mark⟩ :: s.tokens }

/-- Adds a token behind the first `position` ones. -/
def emitAt (s : Scanner) (position : Nat) (kind : TokenKind) (mark : Mark) : Scanner :=
  let later := s.tokens.take (s.tokens.length - position)
  let earlier := s.tokens.drop (s.tokens.length - position)
  { s with tokens := later ++ ⟨kind, mark⟩ :: earlier }

/-- Goes on behind so many characters of the line. -/
def skip (s : Scanner) (n : Nat) : Scanner :=
  { s with mark := s.mark.skip n, chars := s.chars.drop n }

/-- Goes on from a place. -/
def goto (s : Scanner) (r : Rest) : Scanner := { s with mark := r.mark, chars := r.chars }

/-- Closes the blocks to the right of a column. -/
def unroll (s : Scanner) (column : Int) : Scanner :=
  if s.inFlow then s
  else
    let closed := s.indents.takeWhile fun n : Nat => column < (n : Int)
    { s with
      tokens := closed.map (fun _ => ⟨.blockEnd, s.mark⟩) ++ s.tokens
      indents := s.indents.dropWhile fun n : Nat => column < (n : Int) }

/-- Opens a block at a column to the right of the innermost one. -/
def roll (s : Scanner) (column position : Nat) (kind : TokenKind) (mark : Mark) : Scanner :=
  if s.inFlow then s
  else if s.indent < column then
    { s.emitAt position kind mark with indents := column :: s.indents }
  else s

/-- Opens a block at the present column. -/
def rollHere (s : Scanner) (kind : TokenKind) : Scanner :=
  s.roll s.mark.column s.tokens.length kind s.mark

/-- A possible key that is out of reach: on an earlier line, or too far back. -/
def checkKey (mark : Mark) : Option SimpleKey → Except Failure (Option SimpleKey)
  | none => .ok none
  | some k =>
    if k.mark.line < mark.line ∨ k.mark.index + 1024 < mark.index then
      if k.required then fail .missingColon mark else .ok none
    else .ok (some k)

/-- Drops the possible keys that are out of reach. -/
def dropStaleKeys (s : Scanner) : Except Failure Scanner := do
  let outerKeys ← s.outerKeys.mapM (checkKey s.mark)
  let key ← checkKey s.mark s.key
  pure { s with key, outerKeys }

/-- Drops the possible key of the present level. -/
def removeKey (s : Scanner) : Except Failure Scanner :=
  if s.key.any (·.required) then fail .missingColon s.mark else .ok { s with key := none }

/-- Keeps the present place as that of a possible key. -/
def saveKey (s : Scanner) : Except Failure Scanner := do
  if s.keyAllowed then
    let s ← s.removeKey
    let required := !s.inFlow && s.indent == (s.mark.column : Int)
    pure { s with key := some ⟨s.tokens.length, s.mark, required⟩ }
  else pure s

/-- Goes on to the next token: over blanks, comments and line breaks. A tab is a blank only where
no key may begin. In a block a line break lets a key begin. -/
def toToken (flow allowed comment : Bool) (m : Mark) : List Char → Bool × Rest
  | [] => (allowed, ⟨m, []⟩)
  | '\r' :: '\n' :: cs => toToken flow (allowed || !flow) false (m.newLine 2) cs
  | c :: cs =>
    if isBreak c then toToken flow (allowed || !flow) false (m.newLine 1) cs
    else if comment then toToken flow allowed true (m.skip 1) cs
    else if c = ' ' ∨ (c = '\t' ∧ (flow ∨ !allowed)) ∨ (c = '\ufeff' ∧ m.index = 0) then
      toToken flow allowed false (m.skip 1) cs
    else if c = '#' then toToken flow allowed true (m.skip 1) cs
    else (allowed, ⟨m, c :: cs⟩)

/-- The end of the text. -/
def streamEnd (s : Scanner) : Except Failure Scanner := do
  let s ← (s.unroll (-1)).removeKey
  pure (s.emit .streamEnd s.mark)

/-- Three hyphens or dots. -/
def documentIndicator (s : Scanner) (kind : TokenKind) : Except Failure Scanner := do
  let s ← (s.unroll (-1)).removeKey
  pure ({ s with keyAllowed := false }.emit kind s.mark |>.skip 3)

/-- A bracket or brace that opens a flow collection. -/
def flowStart (s : Scanner) (kind : TokenKind) : Except Failure Scanner := do
  let s ← s.saveKey
  let s := { s with outerKeys := s.key :: s.outerKeys, key := none, keyAllowed := true }
  pure (s.emit kind s.mark |>.skip 1)

/-- A bracket or brace that closes a flow collection. -/
def flowEnd (s : Scanner) (kind : TokenKind) : Except Failure Scanner := do
  let s ← s.removeKey
  let s :=
    match s.outerKeys with
    | [] => s
    | key :: outerKeys => { s with key, outerKeys }
  pure ({ s with keyAllowed := false }.emit kind s.mark |>.skip 1)

/-- A comma between the entries of a flow collection. -/
def flowEntry (s : Scanner) : Except Failure Scanner := do
  let s ← s.removeKey
  pure ({ s with keyAllowed := true }.emit .flowEntry s.mark |>.skip 1)

/-- A hyphen before an entry of a block sequence. -/
def blockEntry (s : Scanner) : Except Failure Scanner := do
  if !s.inFlow && !s.keyAllowed then fail .misplacedEntry s.mark
  else
    let s ← (s.rollHere .blockSequenceStart).removeKey
    pure ({ s with keyAllowed := true }.emit .blockEntry s.mark |>.skip 1)

/-- A question mark before a key. -/
def explicitKey (s : Scanner) : Except Failure Scanner := do
  if !s.inFlow && !s.keyAllowed then fail .misplacedKey s.mark
  else
    let s ← (s.rollHere .blockMappingStart).removeKey
    pure ({ s with keyAllowed := !s.inFlow }.emit .key s.mark |>.skip 1)

/-- A colon before a value: what was read since the possible key is a key. -/
def valueIndicator (s : Scanner) : Except Failure Scanner :=
  match s.key with
  | some k =>
    let s := s.emitAt k.position .key k.mark
    let s := s.roll k.mark.column k.position .blockMappingStart k.mark
    .ok ({ s with key := none, keyAllowed := false }.emit .value s.mark |>.skip 1)
  | none =>
    if !s.inFlow && !s.keyAllowed then fail .misplacedValue s.mark
    else
      let s := s.rollHere .blockMappingStart
      .ok ({ s with keyAllowed := !s.inFlow }.emit .value s.mark |>.skip 1)

/-- A block scalar. -/
def blockScalar (s : Scanner) (style : Style) : Except Failure Scanner := do
  let s ← s.removeKey
  let (text, rest) ← readBlock (style = .literal) s.indent (s.mark.skip 1) (s.chars.drop 1)
  pure ({ s with keyAllowed := true }.emit (.scalar text style) s.mark |>.goto rest)

/-- A scalar between quotation marks. -/
def quotedScalar (s : Scanner) (style : Style) : Except Failure Scanner := do
  let s ← s.saveKey
  let (text, rest) ← readQuoted (style = .double) Folding.empty (s.mark.skip 1) (s.chars.drop 1)
  pure ({ s with keyAllowed := false }.emit (.scalar text style) s.mark |>.goto rest)

/-- A plain scalar; if it ends before a line, a key may begin there. -/
def plainScalar (s : Scanner) : Except Failure Scanner := do
  let s ← s.saveKey
  let (f, rest) ← readPlain s.inFlow (s.indent + 1).toNat Folding.empty s.mark s.chars
  pure ({ s with keyAllowed := f.broken }.emit (.scalar f.result .plain) s.mark |>.goto rest)

/-- A character that cannot begin a plain scalar. -/
def isIndicator (c : Char) : Bool := "-?:,[]\x7b\x7d#&*!|>'\"%@`".toList.contains c

/-- A plain scalar can begin with `c` before `cs`. -/
def beginsPlain (flow : Bool) (c : Char) (cs : List Char) : Bool :=
  !(isSpace c || isIndicator c) || (c = '-' && !cs.head?.any isBlank)
    || (!flow && (c = '?' || c = ':') && !endsWord cs)

/-- The token that begins with `c` before `cs`. -/
def token (s : Scanner) (c : Char) (cs : List Char) : Except Failure Scanner :=
  if s.mark.column = 0 ∧ c = '%' then fail .unexpectedCharacter s.mark
  else if s.mark.column = 0 ∧ isDocumentIndicator (c :: cs) then
    s.documentIndicator (if c = '-' then .documentStart else .documentEnd)
  else if c = '[' then s.flowStart .flowSequenceStart
  else if c = '\x7b' then s.flowStart .flowMappingStart
  else if c = ']' then s.flowEnd .flowSequenceEnd
  else if c = '\x7d' then s.flowEnd .flowMappingEnd
  else if c = ',' then s.flowEntry
  else if c = '-' ∧ endsWord cs then s.blockEntry
  else if c = '?' ∧ (s.inFlow ∨ endsWord cs) then s.explicitKey
  else if c = ':' ∧ (s.inFlow ∨ endsWord cs) then s.valueIndicator
  else if c = '|' ∧ !s.inFlow then s.blockScalar .literal
  else if c = '>' ∧ !s.inFlow then s.blockScalar .folded
  else if c = '\'' then s.quotedScalar .single
  else if c = '"' then s.quotedScalar .double
  else if beginsPlain s.inFlow c cs then s.plainScalar
  else fail .unexpectedCharacter s.mark

/-- The next token, after the ends of the blocks to its right. -/
def next (s : Scanner) : Except Failure Scanner := do
  let (keyAllowed, rest) := toToken s.inFlow s.keyAllowed false s.mark s.chars
  let s ← ({ s with keyAllowed }.goto rest).dropStaleKeys
  let s := s.unroll s.mark.column
  match s.chars with
  | [] => s.streamEnd
  | c :: cs => s.token c cs

/-- The pass has reached the end of the text. -/
def finished (s : Scanner) : Bool := s.tokens.head?.any (·.kind = .streamEnd)

/-- Reads tokens until the text ends. -/
def run : Nat → Scanner → Except Failure Scanner
  | 0, s => .ok s
  | fuel + 1, s =>
    match s.next with
    | .error e => .error e
    | .ok s => if s.finished then .ok s else run fuel s

end Scanner

/-- The tokens of a text. Each takes a character at least, so there are no more than characters,
and the end. -/
def tokens (text : String) : Except Failure (List Token) :=
  let cs := text.toList
  if cs.all isAllowed then
    (Scanner.run (cs.length + 1) (Scanner.init cs)).map fun s => s.tokens.reverse
  else fail .controlCharacter Mark.origin

end CommentProse.Yaml
