import CommentProse.CommandLine

/-!
The program: reads the command line, the files that the command asks for, and prints its outcome.
-/

open CommentProse

namespace CommentProse.Program

/-- The text for a command line that is no command. -/
def usage : String :=
  "Usage: kdoc-prose [-v] <COMMAND>\n\nCommands:\n"
    ++ "  extract [-c FILE] [-f pretty|json] [--check] PATH   extract documentation comments\n"
    ++ "  extensions                                          list registered extensions\n"

/-- The name and number of this version. -/
def version : String := "kdoc-prose 0.1.0\n"

/-- Reads the entry at a path, which is absolute or begins in the current directory. -/
partial def readEntry (path : String) : IO (Except AccessError Entry) := do
  let full := (← IO.currentDir) / path
  if ← full.isDir then
    let mut entries : List (String × Entry) := []
    for child in ← full.readDir do
      match ← readEntry (Path.join path child.fileName) with
      | .ok entry => entries := (child.fileName, entry) :: entries
      | .error _ => pure ()
    pure (.ok (.directory entries))
  else if ← full.pathExists then
    pure (.ok (.file (← IO.FS.readBinFile full)))
  else pure (.error .notFound)

/-- Reads a stream to its end. -/
partial def readAll (stream : IO.FS.Stream) (read : ByteArray) : IO ByteArray := do
  let more ← stream.read 65536
  if more.isEmpty then pure read else readAll stream (read ++ more)

/-- The paths that a command reads. -/
def paths : Command → List String
  | .extensions => []
  | .extract x =>
    let config := match x.config with
      | some path => [path]
      | none => Config.fileNames.map (Path.join ".")
    if x.path = Extraction.stdinPath then config else config ++ [x.path]

/-- Reads what a command asks for. -/
def readWorkspace (command : Command) : IO Workspace := do
  let mut table : List (String × Except AccessError Entry) := []
  for path in paths command do
    table := (path, ← readEntry path) :: table
  let stdin ←
    match command with
    | .extract x =>
      if x.path = Extraction.stdinPath then readAll (← IO.getStdin) ByteArray.empty
      else pure ByteArray.empty
    | .extensions => pure ByteArray.empty
  let known := table
  pure ⟨fun path => (known.lookup path).getD (.error .notFound), stdin⟩

/-- Prints what a command leaves. -/
def print (o : Outcome) : IO UInt32 := do
  IO.print o.stdout
  IO.eprint o.stderr
  pure o.exit.toUInt32

end CommentProse.Program

/-- Runs the command of some arguments. -/
def main (args : List String) : IO UInt32 := do
  match CommandLine.parse args with
  | .error .help => IO.print Program.usage; pure 0
  | .error .version => IO.print Program.version; pure 0
  | .error _ => IO.eprint Program.usage; pure 2
  | .ok command =>
    let workspace ← Program.readWorkspace command
    let color ← (← IO.getStdout).isTty
    match command.run workspace color with
    | .error e => IO.eprint ("Error: " ++ e.message ++ "\n"); pure 2
    | .ok outcome => Program.print outcome
