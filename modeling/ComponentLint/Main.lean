import ComponentLint.Command.Run
/-
  The program: takes in the files that a command line speaks of, runs the command, writes what
  changed and prints what it says.
-/

namespace ComponentLint.Command

/-- The paths that a command reads. -/
def Invocation.inputs : Invocation → List Path
  | .check arguments => configPath arguments.root arguments.config :: arguments.paths
  | .sections arguments => [configPath arguments.root arguments.config]

/-- The directory below which a command writes sources, if it does. -/
def Invocation.sourceRoot? : Invocation → Option Path
  | .check arguments => if arguments.fix && arguments.writeSource then some arguments.root else none
  | .sections _ => none

/-- The place that a path leads to when all directories on the way are there. -/
def place (path : Path) : List String :=
  path.names.foldl step []

def addFile (tree : FileTree) (path : Path) (content : ByteArray) : FileTree :=
  { tree with files := tree.files.put (place path) content }

def addDirectory (tree : FileTree) (path : Path) : FileTree :=
  { tree with directories := place path :: tree.directories }

/-- The directories that a path leads through. -/
def ancestors (path : Path) : List Path :=
  (List.range path.names.length).map fun n => ⟨path.names.take n⟩

/-- Takes in the directories that a path leads through. -/
def takeInWay (tree : FileTree) (path : Path) : IO FileTree := do
  let mut tree := tree
  for ancestor in ancestors path do
    try
      if ← (← IO.FS.realPath ancestor.text).isDir then tree := addDirectory tree ancestor
    catch _ => pure ()
  return tree

/-- Takes in what stands at a path: a file, or a directory with all below it. The contents of
files are left out if only the directories count. -/
partial def takeIn (contents : Bool) (tree : FileTree) (path : Path) : IO FileTree := do
  try
    let found ← IO.FS.realPath path.text
    if ← found.isDir then
      let mut tree := addDirectory tree path
      for entry in ← found.readDir do
        tree ← takeIn contents tree (path.join ⟨[entry.fileName]⟩)
      return tree
    else if contents then
      return addFile tree path (← IO.FS.readBinFile path.text)
    else return tree
  catch _ => return tree

def snapshot (invocation : Invocation) : IO FileTree := do
  let mut tree : FileTree := {}
  for path in invocation.inputs do
    tree ← takeInWay tree path
    tree ← takeIn true tree path
  match invocation.sourceRoot? with
  | some root => takeIn false (← takeInWay tree root) root
  | none => return tree

def AccessFailure.message : AccessFailure → String
  | .missing => "no such file or directory"
  | .isDirectory => "is a directory"
  | .notADirectory => "not a directory"
  | .nameTooLong => "name too long"
  | .unnameable => "name with a null character"

def lintFailureMessage : LintFailure → String
  | .unreachable failure => failure.message
  | .unencodable => "source that has no bytes"
  | .noWorkers => "no workers"

def Crash.message : Crash → String
  | .access failure => "failed to access a file: " ++ failure.message
  | .notUtf8 => "not UTF-8 text"
  | .integerTooLong => "integer with too many digits"
  | .lint failure => lintFailureMessage failure
  | .unencodable => "text that has no bytes"

def usage : String :=
  "usage: check PATHS... [--fix] [--format text|json] [--severity-threshold NAME] " ++
    "[--config PATH] [--naming | --no-naming] [--write-source] [--root PATH] [--jobs N] " ++
    "[--verbose]\n       sections [--config PATH] [--root PATH]\n"

/-- Writes, prints and gives the exit code. -/
def settle (before : FileTree) (outcome : Outcome) : IO UInt32 := do
  for (names, content) in before.changesSince outcome.tree do
    IO.FS.writeBinFile (Path.mk names).text content
  (← IO.getStdout).putStr outcome.stdout
  (← IO.getStderr).putStr outcome.stderr
  match outcome.ending with
  | .exit code => return code.toUInt32
  | .usage =>
    (← IO.getStderr).putStr usage
    return 2
  | .crash cause =>
    (← IO.getStderr).putStr (cause.message ++ "\n")
    return 1

end ComponentLint.Command

open ComponentLint.Command in
def main (arguments : List String) : IO UInt32 := do
  let tree ← match parse? arguments with
    | some invocation => snapshot invocation
    | none => pure {}
  settle tree (run tree arguments)
