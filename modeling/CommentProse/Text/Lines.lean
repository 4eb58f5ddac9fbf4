/-!
Pieces of a text between separators, and its lines.

* `splitOn`, `joinWith`: the pieces between separators, and back; `joinWith_splitOn` says that
  nothing is lost;
* `splitLines`, `joinLines`: the same for line feeds;
* `shownLines`: the lines as a reader sees them, where the last line feed ends a line and a
  carriage return before a line feed belongs to the line end.
-/

namespace CommentProse.Text

/-! ### Pieces -/

/-- Puts a character in front of the first of some pieces. -/
def consPiece (c : Char) : List (List Char) → List (List Char)
  | [] => [[c]]
  | p :: ps => (c :: p) :: ps

/-- The pieces between separators: one more than there are separators. -/
def splitOn (sep : Char) (cs : List Char) : List (List Char) :=
  cs.foldr (fun c ps => if c = sep then [] :: ps else consPiece c ps) [[]]

/-- The pieces with a separator between any two. -/
def joinWith (sep : Char) : List (List Char) → List Char
  | [] => []
  | p :: ps => p ++ ps.flatMap (sep :: ·)

@[simp] theorem splitOn_nil (sep : Char) : splitOn sep [] = [[]] := rfl

@[simp] theorem splitOn_cons (sep c : Char) (cs : List Char) :
    splitOn sep (c :: cs) =
      if c = sep then [] :: splitOn sep cs else consPiece c (splitOn sep cs) :=
  rfl

/-- There is always a first piece. -/
theorem splitOn_ne_nil (sep : Char) (cs : List Char) : splitOn sep cs ≠ [] := by
  cases cs with
  | nil => simp
  | cons c cs =>
    rw [splitOn_cons]
    split
    · simp
    · cases splitOn sep cs <;> simp [consPiece]

/-- Joining the pieces of a text gives the text. -/
theorem joinWith_splitOn (sep : Char) (cs : List Char) : joinWith sep (splitOn sep cs) = cs := by
  induction cs with
  | nil => rfl
  | cons c cs ih =>
    rw [splitOn_cons]
    split
    · next h =>
      rw [h]
      cases hs : splitOn sep cs with
      | nil => exact absurd hs (splitOn_ne_nil sep cs)
      | cons p ps => rw [hs] at ih; simp [joinWith, ← ih]
    · cases hs : splitOn sep cs with
      | nil => exact absurd hs (splitOn_ne_nil sep cs)
      | cons p ps => rw [hs] at ih; simp [consPiece, joinWith, ← ih]

/-! ### Lines -/

/-- The pieces between line feeds. -/
def splitLines (cs : List Char) : List (List Char) := splitOn '\n' cs

/-- The lines with a line feed between any two. -/
def joinLines (lines : List (List Char)) : List Char := joinWith '\n' lines

/-- A line without the carriage return that ends it. -/
def dropReturn (cs : List Char) : List Char :=
  if cs.getLast? = some '\r' then cs.dropLast else cs

/-- The lines that a listing shows: a line feed ends a line, together with a carriage return
before it, and an empty line after the last line feed does not count. -/
def shownLines (cs : List Char) : List (List Char) :=
  let pieces := splitLines cs
  let last := pieces.getLast?.getD []
  pieces.dropLast.map dropReturn ++ if last.isEmpty then [] else [last]

end CommentProse.Text
