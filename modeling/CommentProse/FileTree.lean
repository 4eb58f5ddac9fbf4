import CommentProse.Path

/-!
Files and directories.

* `Entry`: a file with its bytes, or a directory with its entries;
* `Entry.insert`: an entry at a path, with the directories above it;
* `FileSystem`: a root directory and a current one, and `FileSystem.resolve` what a path leads to;
* `AccessError`: why a path leads nowhere, and `AccessError.message` its text;
* `Workspace`: what a command can read.

Names are texts. A file system that allows other names has files that no tree here holds: those
whose name, or the name of a directory above them, is not UTF-8.
-/

namespace CommentProse

/-- A file or a directory. -/
inductive Entry where
  | file (content : ByteArray)
  | directory (entries : List (String × Entry))

/-- Why a path cannot be read. -/
inductive AccessError where
  | notFound
  | notADirectory
  | isADirectory
  | invalidUtf8
deriving DecidableEq, Repr

/-- The text of an error. -/
def AccessError.message : AccessError → String
  | .notFound => "No such file or directory (os error 2)"
  | .notADirectory => "Not a directory (os error 20)"
  | .isADirectory => "Is a directory (os error 21)"
  | .invalidUtf8 => "stream did not contain valid UTF-8"

/-- The text of some bytes. -/
def decodeUtf8 (content : ByteArray) : Except AccessError String :=
  match String.fromUTF8? content with
  | some s => .ok s
  | none => .error .invalidUtf8

namespace Entry

/-- No entries. -/
def empty : Entry := .directory []

/-- A file. -/
def isFile : Entry → Bool
  | .file _ => true
  | .directory _ => false

/-- The entries of a directory. -/
def entries : Entry → List (String × Entry)
  | .file _ => []
  | .directory es => es

/-- Puts an entry below the names of a path, with the directories that are missing. -/
def insert (e : Entry) : List String → Entry → Entry
  | [], _ => e
  | name :: names, target =>
    let inner := insert e names ((target.entries.lookup name).getD empty)
    .directory ((name, inner) :: target.entries.filter (·.1 ≠ name))

/-- Puts a directory below the names of a path, unless there is one. -/
def insertDirectory : List String → Entry → Entry
  | [], target => target
  | name :: names, target =>
    let inner := insertDirectory names ((target.entries.lookup name).getD empty)
    .directory ((name, inner) :: target.entries.filter (·.1 ≠ name))

/-- What some pieces of a path lead to from the innermost of some directories. The way up from the
outermost of them leads back to it. -/
def descend : List Entry → Entry → List String → Except AccessError Entry
  | _, here, [] => .ok here
  | above, here, piece :: pieces =>
    match here with
    | .file _ => .error .notADirectory
    | .directory es =>
      if piece.isEmpty || piece = "." then descend above here pieces
      else if piece = ".." then
        match above with
        | [] => descend [] here pieces
        | parent :: above => descend above parent pieces
      else
        match es.lookup piece with
        | none => .error .notFound
        | some e => descend (here :: above) e pieces

/-- The text of a file. -/
def readText : Entry → Except AccessError String
  | .file content => decodeUtf8 content
  | .directory _ => .error .isADirectory

end Entry

/-- All files that there are: the root directory, and the names that lead from it to the current
one. -/
structure FileSystem where
  root : Entry
  here : List String

namespace FileSystem

/-- The pieces of a path from the root on: a path that begins with a slash begins there, any other
one in the current directory. -/
def piecesFromRoot (fs : FileSystem) (path : String) : List String :=
  if path.toList.head? = some '/' then Path.pieces path else fs.here ++ Path.pieces path

/-- What a path leads to. -/
def resolve (fs : FileSystem) (path : String) : Except AccessError Entry :=
  if path.isEmpty then .error .notFound
  else Entry.descend [] fs.root (fs.piecesFromRoot path)

end FileSystem

/-- What a command can read: the entry that each path leads to, and its standard input. -/
structure Workspace where
  entry : String → Except AccessError Entry
  stdin : ByteArray

namespace Workspace

/-- The workspace of a file system. -/
def ofFiles (fs : FileSystem) (stdin : ByteArray) : Workspace := ⟨fs.resolve, stdin⟩

/-- The workspace of a directory that is the root and the current directory. -/
def ofTree (root : Entry) (stdin : ByteArray) : Workspace := ofFiles ⟨root, []⟩ stdin

end Workspace

end CommentProse
