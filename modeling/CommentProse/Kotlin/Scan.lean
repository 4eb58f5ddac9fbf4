import CommentProse.Comment

/-!
The comments of a Kotlin text, by one pass over its characters.

* `Mode`: what the next character belongs to: code, a comment, a string, a character literal;
* `Scan.step`: one character, which may end a comment;
* `Scan.run`, `Scan.found`: the state after a text, and the comments that end in it;
* `comments`: all comments of a text, in order.

Comments are those of code, also of code inside `${…}` in a string. Block comments nest. A block
comment that the text does not close is none.
-/

namespace CommentProse.Kotlin

/-- The two kinds of comment. -/
inductive CommentKind where
  | block
  | line
deriving DecidableEq, Repr

/-- The two kinds of string literal: between single quotation marks, with escapes, and between
triple ones, without. -/
inductive StringKind where
  | plain
  | raw
deriving DecidableEq, Repr

/-- What a closing brace in code goes back to: code, or the string whose template it ends. -/
inductive Opener where
  | brace
  | template (kind : StringKind)
deriving DecidableEq, Repr

/-- The last character inside a block comment, as far as it matters for the next one. -/
inductive Mark where
  | other
  | slash
  | star
deriving DecidableEq, Repr

/-- What the next character belongs to. Texts of unfinished comments are kept in reverse. -/
inductive Mode where
  /-- The beginning of the text. -/
  | start
  /-- After a `#` that begins the text. -/
  | hash
  /-- In a first line that names an interpreter. -/
  | interpreter
  /-- In code. -/
  | code
  /-- After a slash in code. -/
  | slash (begin : Cursor)
  /-- In a line comment. -/
  | line (begin : Cursor) (text : List Char)
  /-- In a block comment inside `outer` others. -/
  | block (begin : Cursor) (text : List Char) (outer : Nat) (mark : Mark)
  /-- After one quotation mark in code. -/
  | quote
  /-- After two quotation marks in code. -/
  | quotes
  /-- In a plain string. -/
  | plain
  /-- After a backslash in a plain string. -/
  | plainEscape
  /-- After a dollar in a plain string. -/
  | plainDollar
  /-- In a raw string, after so many quotation marks. -/
  | raw (quotes : Nat)
  /-- After a dollar in a raw string. -/
  | rawDollar
  /-- After the three quotation marks that end a raw string. -/
  | rawEnd
  /-- At the first character of a character literal. -/
  | character
  /-- After a backslash that begins a character literal. -/
  | characterEscape
  /-- After the first character of a character literal. -/
  | characterRest
  /-- In a name between backticks. -/
  | name
deriving DecidableEq, Repr

/-- The state of the pass: the place reached, the open braces, and the mode. -/
structure Scan where
  cursor : Cursor
  openers : List Opener
  mode : Mode
deriving DecidableEq, Repr

/-- A comment that was found, with its kind. -/
abbrev Found := CommentKind × Comment

/-- The comment between two places. -/
def Found.between (kind : CommentKind) (reversed : List Char) (begin stop : Cursor) : Found :=
  (kind, ⟨String.ofList reversed.reverse, ⟨begin.offset, stop.offset⟩, begin.point, stop.point⟩)

namespace Mode

/-- A character of code at a place: the openers and the mode after it. -/
def inCode (here : Cursor) (openers : List Opener) (c : Char) : List Opener × Mode :=
  match c with
  | '/' => (openers, .slash here)
  | '"' => (openers, .quote)
  | '\'' => (openers, .character)
  | '\x60' => (openers, .name)
  | '\x7b' => (.brace :: openers, .code)
  | '\x7d' =>
    match openers with
    | .template .plain :: rest => (rest, .plain)
    | .template .raw :: rest => (rest, .raw 0)
    | .brace :: rest => (rest, .code)
    | [] => ([], .code)
  | _ => (openers, .code)

/-- A character of a plain string. -/
def inPlain (c : Char) : Mode :=
  match c with
  | '"' => .code
  | '\\' => .plainEscape
  | '$' => .plainDollar
  | _ => .plain

/-- A character of a raw string that follows so many quotation marks. -/
def inRaw (quotes : Nat) (c : Char) : Mode :=
  match c with
  | '"' => if quotes = 2 then .rawEnd else .raw (quotes + 1)
  | '$' => .rawDollar
  | _ => .raw 0

/-- A character of a block comment: the number of comments around it, the mark after it, and
whether it ends the outermost comment. -/
def inBlock (outer : Nat) (mark : Mark) (c : Char) : Nat × Mark × Bool :=
  match c, mark with
  | '*', .slash => (outer + 1, .other, false)
  | '*', _ => (outer, .star, false)
  | '/', .star => if outer = 0 then (0, .other, true) else (outer - 1, .other, false)
  | '/', _ => (outer, .slash, false)
  | _, _ => (outer, .other, false)

end Mode

namespace Scan

/-- The state at the beginning of a text. -/
def init : Scan := ⟨Cursor.origin, [], .start⟩

/-- The openers and the mode after a character, and the comment that it ends. -/
def next (s : Scan) (c : Char) : (List Opener × Mode) × Option Found :=
  let code := Mode.inCode s.cursor s.openers c
  let keep (mode : Mode) : (List Opener × Mode) × Option Found := ((s.openers, mode), none)
  match s.mode with
  | .start => if c = '#' then keep .hash else (code, none)
  | .hash => if c = '!' then keep .interpreter else (code, none)
  | .interpreter => keep (if c = '\n' then .code else .interpreter)
  | .code => (code, none)
  | .slash begin =>
    if c = '/' then keep (.line begin ['/', '/'])
    else if c = '*' then keep (.block begin ['*', '/'] 0 .other)
    else (code, none)
  | .line begin text =>
    if c = '\n' then ((s.openers, .code), some (Found.between .line text begin s.cursor))
    else keep (.line begin (c :: text))
  | .block begin text outer mark =>
    let (outer', mark', closed) := Mode.inBlock outer mark c
    if closed then
      ((s.openers, .code), some (Found.between .block (c :: text) begin (s.cursor.advance c)))
    else keep (.block begin (c :: text) outer' mark')
  | .quote => keep (if c = '"' then .quotes else Mode.inPlain c)
  | .quotes => if c = '"' then keep (.raw 0) else (code, none)
  | .plain => keep (Mode.inPlain c)
  | .plainEscape => keep .plain
  | .plainDollar =>
    if c = '\x7b' then ((.template .plain :: s.openers, .code), none) else keep (Mode.inPlain c)
  | .raw quotes => keep (Mode.inRaw quotes c)
  | .rawDollar =>
    if c = '\x7b' then ((.template .raw :: s.openers, .code), none) else keep (Mode.inRaw 0 c)
  | .rawEnd => if c = '"' then keep .rawEnd else (code, none)
  | .character => keep (if c = '\\' then .characterEscape else .characterRest)
  | .characterEscape => keep .characterRest
  | .characterRest => keep (if c = '\'' then .code else .characterRest)
  | .name => keep (if c = '\x60' then .code else .name)

/-- The state after a character, and the comment that it ends. -/
def step (s : Scan) (c : Char) : Scan × Option Found :=
  let ((openers, mode), found) := s.next c
  (⟨s.cursor.advance c, openers, mode⟩, found)

/-- The state after a text. -/
def run (s : Scan) (cs : List Char) : Scan := cs.foldl (fun s c => (s.step c).1) s

/-- The comments that end in a text. -/
def found (s : Scan) : List Char → List Found
  | [] => []
  | c :: cs =>
    match s.step c with
    | (s', some f) => f :: s'.found cs
    | (s', none) => s'.found cs

/-- The line comment that the end of the text ends. -/
def last (s : Scan) : List Found :=
  match s.mode with
  | .line begin text => [Found.between .line text begin s.cursor]
  | _ => []

@[simp] theorem run_nil (s : Scan) : s.run [] = s := rfl

@[simp] theorem run_cons (s : Scan) (c : Char) (cs : List Char) :
    s.run (c :: cs) = (s.step c).1.run cs := rfl

@[simp] theorem run_append (s : Scan) (a b : List Char) : s.run (a ++ b) = (s.run a).run b := by
  simp [run]

theorem found_cons (s : Scan) (c : Char) (cs : List Char) :
    s.found (c :: cs) = (s.step c).2.toList ++ (s.step c).1.found cs := by
  rw [found]
  cases h : s.step c with
  | mk s' f => cases f <;> rfl

/-- The comments of two texts in a row are those of the first and then those of the second. -/
theorem found_append (s : Scan) (a b : List Char) :
    s.found (a ++ b) = s.found a ++ (s.run a).found b := by
  induction a generalizing s with
  | nil => rfl
  | cons c a ih =>
    rw [List.cons_append, found_cons, found_cons, run_cons, ih, List.append_assoc]

end Scan

/-- All comments of a text, in the order in which they end. -/
def allComments (text : String) : List Found :=
  let cs := text.toList
  Scan.init.found cs ++ (Scan.init.run cs).last

/-- The comments of one kind, in order. -/
def comments (kind : CommentKind) (text : String) : List Comment :=
  (allComments text).filterMap fun f => if f.1 = kind then some f.2 else none

end CommentProse.Kotlin
