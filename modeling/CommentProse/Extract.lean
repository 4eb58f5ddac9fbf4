import CommentProse.Config.Reader
import CommentProse.FileTree
import CommentProse.Registry
import CommentProse.Report.Listing
import CommentProse.Report.Tree

/-!
The commands.

* `Entry.walk`, `collectFiles`: the files below a directory that are to be read;
* `loadConfig`: the configuration that was named, or that is there, or the standard one, for any
  reader of configurations;
* `processFiles`: the reports on some files, with one processor for all files of an extension;
* `Extraction.reports`: the reports on a file, a directory or the standard input, and
  `Extraction.run` the outcome of writing them;
* `listExtensions`: the extensions that are known.
-/

namespace CommentProse

/-! ### Files below a directory -/

/-- A directory that is not searched: hidden, or made by a build. -/
def isSkipped (name : String) : Bool :=
  name.toList.head? = some '.' || name = "build" || name = "node_modules"

mutual
/-- The files below a directory, by the names that lead to them. -/
def Entry.walk (names : List String) : Entry → List (List String × ByteArray)
  | .file content => [(names, content)]
  | .directory entries => walkAll names entries
/-- The files among some entries of a directory, and below those that are searched. -/
def walkAll (names : List String) : List (String × Entry) → List (List String × ByteArray)
  | [] => []
  | (name, entry) :: rest =>
    (if !entry.isFile && isSkipped name then [] else entry.walk (names ++ [name]))
      ++ walkAll names rest
end

/-- A file to be read. -/
structure SourceFile where
  path : String
  content : ByteArray

/-- A file below a directory is read if its extension is known and neither its path nor the part of
it below the directory is excluded. -/
def isCollected (registry : Registry) (config : Config) (root : String) (names : List String) :
    Bool :=
  registry.extensions.contains (Path.extension (names.getLast?.getD ""))
    && !config.excludes (Path.below "" names) && !config.excludes (Path.below root names)

/-- The files below a directory that are read, in the order of their paths. -/
def collectFiles (registry : Registry) (config : Config) (root : String) (entry : Entry) :
    List SourceFile :=
  let files := (entry.walk []).filter fun f => isCollected registry config root f.1
  (files.mergeSort fun a b => Path.le a.1 b.1).map fun f => ⟨Path.below root f.1, f.2⟩

/-! ### Configuration -/

/-- Why there is no configuration. -/
inductive ConfigError where
  | unreadable (error : AccessError)
  | malformed (message : String)
  | invalid (problem : Config.Problem)

/-- The text of an error. -/
def ConfigError.message : ConfigError → String
  | .unreadable e => e.message
  | .malformed message => message
  | .invalid p => p.message

/-- The configuration file that is there. -/
def discoverConfig (w : Workspace) : Option String :=
  (Config.fileNames.map (Path.join ".")).find? fun path =>
    match w.entry path with
    | .ok e => e.isFile
    | .error _ => false

/-- The configuration in a file. -/
def readConfig (read : Config.Reader) (w : Workspace) (path : String) :
    Except ConfigError Config := do
  let text ← ((w.entry path).bind Entry.readText).mapError .unreadable
  (read text).mapError .malformed

/-- The configuration that was named, or that is there, or the standard one, if it is valid. -/
def loadConfig (read : Config.Reader) (w : Workspace) (named : Option String) :
    Except ConfigError Config := do
  let config ←
    match named <|> discoverConfig w with
    | some path => readConfig read w path
    | none => pure Config.standard
  config.validate.mapError .invalid
  pure config

/-! ### Extraction -/

/-- How reports are written. -/
inductive Format where
  | pretty
  | json
deriving DecidableEq, Repr

/-- What is to be extracted, and how. -/
structure Extraction where
  path : String
  config : Option String
  format : Format
  check : Bool
deriving DecidableEq, Repr

/-- What a command leaves: an exit code and two texts. -/
structure Outcome where
  exit : Nat
  stdout : String
  stderr : String
deriving DecidableEq, Repr

/-- Why a command fails as a whole. -/
inductive CommandError where
  | input (error : AccessError)
  | source (error : SourceError)
deriving DecidableEq, Repr

/-- The text of an error. -/
def CommandError.message : CommandError → String
  | .input e => e.message
  | .source e => e.message

/-- Why there are no reports: the configuration or the path is unusable, or the command fails. -/
inductive Obstacle where
  | config (error : ConfigError)
  | path (path : String) (error : AccessError)
  | command (error : CommandError)

/-- The rule of findings about a tree. -/
def checkRule : String := "ast-check"

/-- The defect of a document as a finding. -/
def checkMessages (d : Document) : List LintMessage :=
  match d.check with
  | .ok () => []
  | .error defect =>
    [{ ruleId := checkRule
       message := defect.message
       index := d.range.start
       line := d.loc.start.line
       column := d.loc.start.column
       severity := .error }]

/-- The report on a text. -/
def processText (p : Processor) (text : String) (path : Option String) (check : Bool) :
    Except SourceError FileReport := do
  let document ← p.preProcess text
  let messages := if check then checkMessages document else []
  pure (FileReport.ofPostProcessed document (p.postProcess messages path))

/-- The processors that have been made so far, by extension. -/
abbrev ProcessorCache := List (String × Processor)

/-- The processor for an extension, made only if there is none yet, and the processors made so far;
none if the extension is not known. -/
def ProcessorCache.request (registry : Registry) (cache : ProcessorCache) (ext : String) :
    Except SourceError (Option Processor × ProcessorCache) :=
  match cache.lookup ext with
  | some p => .ok (some p, cache)
  | none => do
    match ← registry.lookup ext with
    | none => pure (none, cache)
    | some p => pure (some p, (ext, p) :: cache)

/-- The report of a processor on a file; none if the file is no text. -/
def processContent (p : Processor) (check : Bool) (file : SourceFile) :
    Except SourceError (Option FileReport) :=
  match decodeUtf8 file.content with
  | .error _ => .ok none
  | .ok text => (processText p text (some file.path) check).map some

/-- The report on a file, and the processors made so far; none if the extension of the file is not
known or it is no text. -/
def processFile (registry : Registry) (check : Bool) (cache : ProcessorCache) (file : SourceFile) :
    Except SourceError (Option FileReport × ProcessorCache) := do
  let (processor?, cache) ← cache.request registry (Path.extension file.path)
  match processor? with
  | none => pure (none, cache)
  | some p =>
    let report ← processContent p check file
    pure (report, cache)

/-- The reports on some files, with one processor for all files of an extension. -/
def processFiles (registry : Registry) (check : Bool) :
    ProcessorCache → List SourceFile → Except SourceError (List FileReport)
  | _, [] => .ok []
  | cache, file :: files => do
    let (report, cache) ← processFile registry check cache file
    let reports ← processFiles registry check cache files
    pure (report.toList ++ reports)

/-- The files that an entry at a path stands for. -/
def filesOf (registry : Registry) (config : Config) (path : String) : Entry → List SourceFile
  | .file content => [⟨path, content⟩]
  | .directory entries => collectFiles registry config path (.directory entries)

/-- The text of reports in a format. -/
def Format.render (color : Bool) : Format → List FileReport → String
  | .json, reports => FileReport.render reports
  | .pretty, reports => FileReport.listAll color reports

namespace Outcome

/-- The exit code of a run whose reports hold no errors. -/
def success : Nat := 0

/-- The exit code of a run whose reports hold errors. -/
def failed : Nat := 1

/-- The exit code of a run that gave no reports. -/
def unusable : Nat := 2

/-- Only an error. -/
def ofError (message : String) : Outcome := ⟨unusable, "", "Error: " ++ message ++ "\n"⟩

/-- Reports that are to be shown, and the exit code they call for. -/
def ofReports (color : Bool) (format : Format) (reports : List FileReport) : Outcome :=
  ⟨if reports.any FileReport.hasErrors then failed else success, format.render color reports, ""⟩

/-- An unusable configuration or path is told; any other obstacle is the command's own error. -/
def ofObstacle : Obstacle → Except CommandError Outcome
  | .config e => .ok (ofError ("invalid config: " ++ e.message))
  | .path path e =>
    .ok (ofError ("cannot access path " ++ Text.quotedPath path ++ ": " ++ e.message))
  | .command e => .error e

end Outcome

/-- The reports that a configuration shows. -/
def Config.shown (config : Config) (reports : List FileReport) : List FileReport :=
  if config.includeEmpty then reports else reports.filter fun r => !r.isEmpty

namespace Extraction

/-- The path that stands for the standard input. -/
def stdinPath : String := "-"

/-- The report on the standard input. -/
def stdinReports (x : Extraction) (w : Workspace) (config : Config) :
    Except CommandError (List FileReport) := do
  let text ← (decodeUtf8 w.stdin).mapError .input
  let p := Processor.kotlin.withDefaultPath config.defaultFilePath
  let report ← (processText p text none x.check).mapError .source
  pure [report]

/-- The reports on an entry. -/
def entryReports (x : Extraction) (config : Config) (entry : Entry) :
    Except CommandError (List FileReport) :=
  (processFiles Registry.standard x.check []
    (filesOf Registry.standard config x.path entry)).mapError .source

/-- The reports on all that is read, those without content too. -/
def allReports (x : Extraction) (w : Workspace) (config : Config) :
    Except Obstacle (List FileReport) :=
  if x.path = stdinPath then (x.stdinReports w config).mapError .command
  else
    match w.entry x.path with
    | .error e => .error (.path x.path e)
    | .ok entry => (x.entryReports config entry).mapError .command

/-- The reports that are written. -/
def reports (x : Extraction) (read : Config.Reader) (w : Workspace) :
    Except Obstacle (List FileReport) := do
  let config ← (loadConfig read w x.config).mapError .config
  let all ← x.allReports w config
  pure (config.shown all)

/-- Runs an extraction. -/
def run (x : Extraction) (read : Config.Reader) (w : Workspace) (color : Bool) :
    Except CommandError Outcome :=
  match x.reports read w with
  | .ok reports => .ok (Outcome.ofReports color x.format reports)
  | .error obstacle => Outcome.ofObstacle obstacle

end Extraction

/-! ### Extensions -/

/-- A text with spaces behind it up to a width. -/
def padRight (width : Nat) (s : String) : String :=
  s ++ String.ofList (List.replicate (width - s.length) ' ')

/-- An extension and the name of its processor. -/
def extensionLine (registry : Registry) (ext : String) : Except SourceError String := do
  match ← registry.lookup ext with
  | none => pure ""
  | some p => pure ("  " ++ padRight 8 ext ++ " " ++ p.name ++ "\n")

/-- Lists the extensions that are known. -/
def listExtensions (registry : Registry) : Except CommandError Outcome := do
  let lines ← (registry.extensions.mapM (extensionLine registry)).mapError .source
  pure ⟨Outcome.success, "Registered extensions:\n\n" ++ String.join lines, ""⟩

end CommentProse
