import CommentProse.Glob.Pattern
import CommentProse.Processor
import CommentProse.Text.Quoted

/-!
The configuration of an extraction.

* `Config`: which paths are left out, whether files without documentation are shown, and the path
  that stands for a text without a file;
* `Config.validate`: the first thing that is wrong with a configuration;
* `Config.excludes`: a path matches one of the patterns.
-/

namespace CommentProse

/-- The configuration of an extraction. -/
structure Config where
  excludedPaths : List String
  includeEmpty : Bool
  defaultFilePath : String
deriving DecidableEq, Repr

namespace Config

/-- Nothing is left out, files without documentation are not shown. -/
def standard : Config := ⟨[], false, Processor.kotlinPath⟩

/-- The names of configuration files, the first that is there counts. -/
def fileNames : List String := ["kdoc-prose.yaml", ".kdoc-prose.yaml"]

/-- What can be wrong with a configuration. -/
inductive Problem where
  | invalidPattern (pattern : String) (fault : Glob.Fault)
  | emptyFilePath
deriving DecidableEq, Repr

/-- The text of a problem. -/
def Problem.message : Problem → String
  | .invalidPattern pattern fault =>
    "excluded_paths: invalid glob " ++ Text.quoted pattern ++ ": " ++ fault.message pattern
  | .emptyFilePath => "default_file_path must not be empty"

/-- The first pattern of a list that is none. -/
def firstFault? : List String → Option Problem
  | [] => none
  | p :: ps =>
    match Glob.parse p with
    | .error fault => some (.invalidPattern p fault)
    | .ok _ => firstFault? ps

/-- All patterns are patterns, and the path for a text without a file is not blank. -/
def validate (c : Config) : Except Problem Unit :=
  match firstFault? c.excludedPaths with
  | some problem => .error problem
  | none =>
    if (Text.trim c.defaultFilePath.toList).isEmpty then .error .emptyFilePath else .ok ()

/-- A path matches one of the patterns; those that are no patterns match nothing. -/
def excludes (c : Config) (path : String) : Bool :=
  c.excludedPaths.any fun pattern => Glob.matchesText pattern path

end Config

end CommentProse
