import CommentProse.Yaml.Basic

/-!
Scalars: texts between quotation marks, plain texts, and blocks of lines.

* `Folding`: a text in which a single line break becomes a space;
* `readQuoted`, `readPlain`, `readBlock`: each gives the scalar, the place after it, and the
  characters left over.
-/

namespace CommentProse.Yaml

/-- What is left after a part of a text. -/
structure Rest where
  mark : Mark
  chars : List Char

/-! ### Folding -/

/-- A text that is being read, with the blanks and line breaks after its last word. Lists are in
reverse. -/
structure Folding where
  text : List Char
  blanks : List Char
  /-- The first line break after the last word, if it counts. -/
  firstBreak : Option Char
  laterBreaks : List Char
  /-- There was a line break after the last word. -/
  broken : Bool
deriving DecidableEq, Repr

namespace Folding

/-- Nothing read. -/
def empty : Folding := ⟨[], [], none, [], false⟩

/-- A blank between words; blanks at the beginning of a line do not count. -/
def blank (f : Folding) (c : Char) : Folding :=
  if f.broken then f else { f with blanks := c :: f.blanks }

/-- A line break; blanks before it do not count. -/
def lineBreak (f : Folding) (c : Char) : Folding :=
  if f.broken then { f with laterBreaks := breakText c :: f.laterBreaks }
  else { f with blanks := [], firstBreak := some (breakText c), broken := true }

/-- A line break that is left out together with the blanks around it. -/
def hiddenBreak (f : Folding) : Folding :=
  { f with blanks := [], firstBreak := none, broken := true }

/-- The blanks or line breaks become part of the text: a single line break is a space, and of
several the first is left out. -/
def join (f : Folding) : Folding :=
  if f.broken then
    let text :=
      match f.firstBreak with
      | some '\n' => if f.laterBreaks.isEmpty then ' ' :: f.text else f.laterBreaks ++ f.text
      | some c => f.laterBreaks ++ c :: f.text
      | none => f.laterBreaks ++ f.text
    { empty with text }
  else { empty with text := f.blanks ++ f.text }

/-- A character of a word. -/
def push (f : Folding) (c : Char) : Folding :=
  let f := f.join
  { f with text := c :: f.text }

/-- Blanks or line breaks come after the last word. -/
def pending (f : Folding) : Bool := f.broken || !f.blanks.isEmpty

/-- The text so far, without what comes after its last word. -/
def result (f : Folding) : String := String.ofList f.text.reverse

end Folding

/-! ### Quoted scalars -/

/-- The character of an escape of one letter. -/
def simpleEscape? (c : Char) : Option Char :=
  match c with
  | '0' => some '\x00'
  | 'a' => some '\x07'
  | 'b' => some '\x08'
  | 't' => some '\t'
  | '\t' => some '\t'
  | 'n' => some '\n'
  | 'v' => some '\x0b'
  | 'f' => some '\x0c'
  | 'r' => some '\r'
  | 'e' => some '\x1b'
  | ' ' => some ' '
  | '"' => some '"'
  | '/' => some '/'
  | '\\' => some '\\'
  | 'N' => some '\u0085'
  | '_' => some '\u00a0'
  | 'L' => some '\u2028'
  | 'P' => some '\u2029'
  | _ => none

/-- The value of a digit to base sixteen. -/
def hexValue? (c : Char) : Option Nat :=
  let n := c.toNat
  if 0x30 ≤ n ∧ n ≤ 0x39 then some (n - 0x30)
  else if 0x61 ≤ n ∧ n ≤ 0x66 then some (n - 0x61 + 10)
  else if 0x41 ≤ n ∧ n ≤ 0x46 then some (n - 0x41 + 10)
  else none

/-- The character with a code point of some digits to base sixteen. -/
def ofHex? (digits : List Char) : Option Char := do
  let n ← digits.foldlM (fun n d => (hexValue? d).map (n * 16 + ·)) 0
  if n.isValidChar then some (Char.ofNat n) else none

/-- How many digits to base sixteen follow a letter behind a backslash. -/
def hexDigits? (c : Char) : Option Nat :=
  if c = 'x' then some 2 else if c = 'u' then some 4 else if c = 'U' then some 8 else none

/-- The character that a text behind a backslash stands for, and how many characters of the text
stand for it. -/
def readEscape (m : Mark) : List Char → Except Failure (Char × Nat)
  | [] => fail .unexpectedEnd m
  | c :: cs =>
    match hexDigits? c with
    | some n =>
      if cs.length < n then fail .unknownEscape m
      else
        match ofHex? (cs.take n) with
        | some x => .ok (x, n + 1)
        | none => fail .badEscape m
    | none =>
      match simpleEscape? c with
      | some x => .ok (x, 1)
      | none => fail .unknownEscape m

/-- The number of characters of the line break at the beginning of a text, zero if there is none. -/
def breakLength : List Char → Nat
  | [] => 0
  | c :: cs => if c = '\r' ∧ cs.head? = some '\n' then 2 else if isBreak c then 1 else 0

/-- The rest of a scalar between quotation marks. Between double ones there are escapes, and a
backslash before a line break leaves the break out; between single ones two stand for one. -/
def readQuoted (double : Bool) (f : Folding) (m : Mark) :
    List Char → Except Failure (String × Rest)
  | [] => fail .unexpectedEnd m
  | '\r' :: '\n' :: cs => readQuoted double (f.lineBreak '\n') (m.newLine 2) cs
  | c :: cs =>
    if m.column = 0 ∧ isDocumentIndicator (c :: cs) then fail .documentIndicator m
    else if isBlank c then readQuoted double (f.blank c) (m.skip 1) cs
    else if isBreak c then readQuoted double (f.lineBreak c) (m.newLine 1) cs
    else if double then
      if c = '"' then .ok (f.join.result, ⟨m.skip 1, cs⟩)
      else if c = '\\' then
        if 0 < breakLength cs then
          readQuoted double f.join.hiddenBreak ((m.skip 1).newLine (breakLength cs))
            (cs.drop (breakLength cs))
        else
          match readEscape m cs with
          | .error e => .error e
          | .ok (x, n) => readQuoted double (f.push x) (m.skip (n + 1)) (cs.drop n)
      else readQuoted double (f.push c) (m.skip 1) cs
    else if c = '\'' then
      match cs with
      | '\'' :: rest => readQuoted double (f.push '\'') (m.skip 2) rest
      | rest => .ok (f.join.result, ⟨m.skip 1, rest⟩)
    else readQuoted double (f.push c) (m.skip 1) cs
termination_by cs => cs.length
decreasing_by all_goals simp only [List.length_cons, List.length_drop]; omega

/-! ### Plain scalars -/

/-- A character that ends a plain scalar inside flow collections. -/
def isFlowIndicator (c : Char) : Bool :=
  c = ',' || c = '[' || c = ']' || c = '\x7b' || c = '\x7d'

/-- The rest of a plain scalar. In a block its later lines stand at `indent` or to the right of it;
a colon before a space, or a number sign after one, ends it. -/
def readPlain (flow : Bool) (indent : Nat) (f : Folding) (m : Mark) :
    List Char → Except Failure (Folding × Rest)
  | [] => .ok (f, ⟨m, []⟩)
  | '\r' :: '\n' :: cs => readPlain flow indent (f.lineBreak '\n') (m.newLine 2) cs
  | c :: cs =>
    if isBlank c then
      if f.broken ∧ m.column < indent ∧ c = '\t' then fail .tabIndentation m
      else readPlain flow indent (f.blank c) (m.skip 1) cs
    else if isBreak c then readPlain flow indent (f.lineBreak c) (m.newLine 1) cs
    else if f.pending ∧ (c = '#' ∨ (!flow ∧ m.column < indent)
        ∨ (m.column = 0 ∧ isDocumentIndicator (c :: cs))) then .ok (f, ⟨m, c :: cs⟩)
    else if flow ∧ c = ':' ∧ cs.head?.any fun d => isFlowIndicator d || d = '?' then
      fail .unexpectedColon m
    else if (c = ':' ∧ endsWord cs) ∨ (flow ∧ isFlowIndicator c) then .ok (f, ⟨m, c :: cs⟩)
    else readPlain flow indent (f.push c) (m.skip 1) cs

/-! ### Block scalars -/

/-- What happens to the line breaks at the end of a block. -/
inductive Chomp where
  | strip
  | clip
  | keep
deriving DecidableEq, Repr

/-- The first line of a block scalar: what happens to the line breaks at its end, and by how much
it is indented, if that is said. -/
structure BlockHeader where
  chomp : Chomp
  increment : Nat
deriving DecidableEq, Repr

/-- The sign of a header. -/
def chompSign? (c : Char) : Option Chomp :=
  if c = '+' then some .keep else if c = '-' then some .strip else none

/-- The number of a header, which is not zero. -/
def incrementDigit? (c : Char) : Option Nat :=
  if '1' ≤ c ∧ c ≤ '9' then some (c.toNat - 0x30) else none

/-- The sign and the number of a header, in any order, and how many characters they are. -/
def headerSigns (cs : List Char) : BlockHeader × Nat :=
  match cs with
  | [] => (⟨.clip, 0⟩, 0)
  | c :: rest =>
    let next := rest.head?
    match chompSign? c, incrementDigit? c with
    | some chomp, _ =>
      match next.bind incrementDigit? with
      | some n => (⟨chomp, n⟩, 2)
      | none => (⟨chomp, 0⟩, 1)
    | none, some n =>
      match next.bind chompSign? with
      | some chomp => (⟨chomp, n⟩, 2)
      | none => (⟨.clip, n⟩, 1)
    | none, none => (⟨.clip, 0⟩, 0)

/-- The header of a block scalar up to its line break, after the indicator. -/
def readHeader (m : Mark) (cs : List Char) : Except Failure (BlockHeader × Rest) :=
  let (header, n) := headerSigns cs
  let cs := cs.drop n
  let blanks := cs.takeWhile isBlank
  let cs := cs.dropWhile isBlank
  let comment := if cs.head? = some '#' then cs.takeWhile (!isBreak ·) else []
  let cs := cs.drop comment.length
  let m := m.skip (n + blanks.length + comment.length)
  match cs with
  | [] => .ok (header, ⟨m, []⟩)
  | '\r' :: '\n' :: rest => .ok (header, ⟨m.newLine 2, rest⟩)
  | c :: rest => if isBreak c then .ok (header, ⟨m.newLine 1, rest⟩) else fail .badBlockHeader m

/-- A block scalar that is being read. Lists are in reverse. -/
structure Block where
  text : List Char
  /-- The line break after the last line. -/
  lastBreak : Option Char
  /-- The line breaks of empty lines since. -/
  emptyLines : List Char
  /-- The last line began with a blank. -/
  blankStart : Bool
  /-- The column of the lines; zero if it is not known yet. -/
  indent : Nat
deriving DecidableEq, Repr

namespace Block

/-- The text before a line that begins with `c`: in a folded block a line break between two lines
that do not begin with a blank is a space, or nothing before empty lines. -/
def startLine (b : Block) (literal : Bool) (c : Char) : Block :=
  let joins := !literal && b.lastBreak = some '\n' && !b.blankStart && !isBlank c
  let text :=
    if joins then if b.emptyLines.isEmpty then ' ' :: b.text else b.emptyLines ++ b.text
    else b.emptyLines ++ b.lastBreak.toList ++ b.text
  { b with text := c :: text, lastBreak := none, emptyLines := [], blankStart := isBlank c }

/-- The text of a finished block. -/
def result (b : Block) (chomp : Chomp) : String :=
  let text :=
    match chomp with
    | .strip => b.text
    | .clip => b.lastBreak.toList ++ b.text
    | .keep => b.emptyLines ++ b.lastBreak.toList ++ b.text
  String.ofList text.reverse

end Block

/-- Where a block scalar is read: in a line, or in the indentation before one, in which the longest
so far had `longest` characters. -/
inductive BlockPhase where
  | indentation (longest : Nat)
  | line
deriving DecidableEq, Repr

/-- A line break in a block scalar: it ends a line, or makes an empty one. -/
def Block.lineBreak (b : Block) (phase : BlockPhase) (m : Mark) (c : Char) : BlockPhase × Block :=
  match phase with
  | .line => (.indentation 0, { b with lastBreak := some (breakText c) })
  | .indentation longest =>
    (.indentation (max longest m.column), { b with emptyLines := breakText c :: b.emptyLines })

/-- The lines of a block scalar inside a block that is indented by `parent`, until a line is
indented otherwise. -/
def readLines (literal : Bool) (parent : Int) (phase : BlockPhase) (b : Block) (m : Mark) :
    List Char → Except Failure (Block × Rest)
  | [] => .ok (b, ⟨m, []⟩)
  | '\r' :: '\n' :: cs =>
    let (phase, b) := b.lineBreak phase m '\n'
    readLines literal parent phase b (m.newLine 2) cs
  | c :: cs =>
    if isBreak c then
      let (phase, b) := b.lineBreak phase m c
      readLines literal parent phase b (m.newLine 1) cs
    else
      match phase with
      | .line => readLines literal parent .line { b with text := c :: b.text } (m.skip 1) cs
      | .indentation longest =>
        let before := b.indent = 0 ∨ m.column < b.indent
        if before ∧ c = ' ' then
          readLines literal parent (.indentation longest) b (m.skip 1) cs
        else if before ∧ c = '\t' then fail .tabIndentation m
        else
          let indent :=
            if b.indent = 0 then max (max longest m.column) (max (parent + 1).toNat 1)
            else b.indent
          if m.column = indent then
            readLines literal parent .line ({ b with indent }.startLine literal c) (m.skip 1) cs
          else .ok (b, ⟨m, c :: cs⟩)

/-- A block scalar after its indicator. -/
def readBlock (literal : Bool) (parent : Int) (m : Mark) (cs : List Char) :
    Except Failure (String × Rest) := do
  let (header, rest) ← readHeader m cs
  let indent := if header.increment = 0 then 0 else (max parent 0).toNat + header.increment
  let (block, rest) ← readLines literal parent (.indentation 0) ⟨[], none, [], false, indent⟩
    rest.mark rest.chars
  pure (block.result header.chomp, rest)

end CommentProse.Yaml
