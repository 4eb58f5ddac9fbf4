import CommentProse.Text.Lines

/-!
Paths of files.

* `Path.join`: a path and a name below it;
* `Path.below`: a path and several names, each below the one before;
* `Path.pieces`: the names that a path goes through;
* `Path.extension`: the extension of a name, with its dot;
* `Path.le`: the order of paths name by name.
-/

namespace CommentProse.Path

/-- The path of a name below a path. -/
def join (path name : String) : String :=
  if path.isEmpty || path.toList.getLast? = some '/' then path ++ name else path ++ "/" ++ name

/-- The path of some names below a path. -/
def below (root : String) (names : List String) : String := names.foldl join root

/-- The pieces of a path between slashes. -/
def pieces (path : String) : List String := (Text.splitOn '/' path.toList).map String.ofList

/-- The last name of a path. -/
def fileName (path : String) : String := ((pieces path).filter (!·.isEmpty)).getLast?.getD ""

/-- The extension of a name with its dot; nothing if there is no dot, or only one that begins the
name. -/
def extension (path : String) : String :=
  let name := (fileName path).toList
  let tail := (name.reverse.takeWhile (· ≠ '.')).reverse
  let stem := name.take (name.length - tail.length - 1)
  if stem.isEmpty || tail.length = name.length || name = ['.', '.'] then ""
  else String.ofList ('.' :: tail)

/-- Paths by their names, one after the other, each by its characters. -/
def le : List String → List String → Bool
  | [], _ => true
  | _ :: _, [] => false
  | a :: as, b :: bs => if a < b then true else if a = b then le as bs else false

end CommentProse.Path
