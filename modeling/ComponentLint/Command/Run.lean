import ComponentLint.Command.Arguments
import ComponentLint.Command.Log
import ComponentLint.Options.Table
import ComponentLint.Text.Basic
/-
  Running a command on a file tree: what it prints, the tree it leaves and how it ends.
-/

namespace ComponentLint.Command

/-- Why a command breaks off without an exit code of its own. -/
inductive Crash where
  | access (failure : AccessFailure)
  | notUtf8
  | integerTooLong
  | lint (failure : LintFailure)
  | unencodable

inductive Ending where
  | exit (code : Nat)
  | usage
  | crash (cause : Crash)

structure Outcome where
  tree : FileTree
  stdout : String := ""
  stderr : String := ""
  ending : Ending

/-- Lines of text, each with its line feed. -/
def printed (lines : List String) : String :=
  String.join (lines.map (· ++ "\n"))

/-- A line of text for the user, who may not be at a terminal. -/
def shownLine (text : String) : String :=
  Text.withoutControl text

def configName : String := "sectionlint.toml"

def documentEnding : String := ".json"

def configPath (root : Path) (config : Option Path) : Path :=
  config.getD (root.join (.parse configName))

/-- The text of the configuration file; none if it cannot be read. -/
def configText (tree : FileTree) (path : Path) : Except Crash (Option String) :=
  match tree.read path with
  | .error _ => .ok none
  | .ok bytes =>
    match String.fromUTF8? bytes with
    | some text => .ok (some text)
    | none => .error .notUtf8

/-- The end of a command that leaves the tree as it is. -/
def stopped (tree : FileTree) (log : List String) (ending : Ending) : Outcome :=
  { tree, stderr := printed log, ending }

/-- The options of a command, or how it ends without them. -/
def resolveOptions (tree : FileTree) (root : Path) (config : Option Path)
    (settings : Options.Table) : Except Outcome Options :=
  let path := configPath root config
  match configText tree path with
  | .error cause => .error (stopped tree [] (.crash cause))
  | .ok toml =>
    match Options.ofConfig path.text toml settings with
    | .ok options => .ok options
    | .error .integerTooLong => .error (stopped tree [] (.crash .integerTooLong))
    | .error e => .error (stopped tree [shownLine ("configuration error: " ++ e.message)] (.exit 2))

/-- The documents that a path stands for: a directory for those below it. Of a name that is too
long it cannot be said whether it is a directory. -/
def documentsAt (tree : FileTree) (path : Path) : Except Crash (List Path) :=
  match tree.resolve path with
  | .ok names =>
    .ok (if tree.isDirectory names then tree.filesBelow path documentEnding else [path])
  | .error .nameTooLong => .error (.access .nameTooLong)
  | .error _ => .ok [path]

/-- The documents that paths stand for. -/
def discover (tree : FileTree) : List Path → Except Crash (List Path)
  | [] => .ok []
  | path :: paths =>
    match documentsAt tree path with
    | .error cause => .error cause
    | .ok documents => (discover tree paths).map (documents ++ ·)

/-- Why a document is not loaded. -/
inductive LoadFailure where
  | refused (path : Path) (error : Document.Error)
  | crash (cause : Crash)

def loadDocument (tree : FileTree) (path : Path) : Except LoadFailure SourceUnit :=
  match tree.read path with
  | .error _ => .error (.refused path .unreadable)
  | .ok bytes =>
    match Document.readBytes bytes with
    | .ok unit => .ok unit
    | .error .notUtf8 => .error (.crash .notUtf8)
    | .error .integerTooLong => .error (.crash .integerTooLong)
    | .error e => .error (.refused path e)

/-- Loads documents up to the first that fails, with the lines that tell of it. -/
def loadAll (tree : FileTree) : List Path → List String × Except LoadFailure (List SourceUnit)
  | [] => ([], .ok [])
  | path :: paths =>
    match loadDocument tree path with
    | .error failure => ([], .error failure)
    | .ok unit =>
      let (log, rest) := loadAll tree paths
      (loadedLine unit path :: log, rest.map (unit :: ·))

/-- The tree after writing, the lines that tell of it, and what went wrong. -/
structure Written where
  tree : FileTree
  log : List String := []
  failure : Option Crash := none

/-- Writes the document of a fixed unit and, if asked for, its source. -/
def writeFix (arguments : CheckArguments) (tree : FileTree) (path : Path) (result : LintResult) :
    Written :=
  match result.fixed, result.fixedUnit with
  | true, some unit =>
    match Document.render? unit with
    | none => { tree, failure := some .integerTooLong }
    | some text =>
      match tree.write path text.toUTF8 with
      | .error failure => { tree, failure := some (.access failure) }
      | .ok tree =>
        match arguments.writeSource, result.fixedSource with
        | true, some (.unpaired _) =>
          { tree, log := [wroteTreeLine path], failure := some .unencodable }
        | true, some (.text source) =>
          let target := arguments.root.join (.parse result.unit)
          match tree.write target source.toUTF8 with
          | .error failure =>
            { tree, log := [wroteTreeLine path], failure := some (.access failure) }
          | .ok tree => { tree, log := [wroteTreeLine path, wroteSourceLine target] }
        | _, _ => { tree, log := [wroteTreeLine path] }
  | _, _ => { tree }

/-- Writes fixes up to the first that fails. -/
def writeFixes (arguments : CheckArguments) (tree : FileTree) :
    List (Path × LintResult) → Written
  | [] => { tree }
  | (path, result) :: rest =>
    let first := writeFix arguments tree path result
    if first.failure.isSome then first
    else
      let more := writeFixes arguments first.tree rest
      { more with log := first.log ++ more.log }

/-- The explicit settings of a check. -/
def checkSettings (arguments : CheckArguments) : Options.Table :=
  [("severity_threshold", (arguments.threshold.map Data.text).getD .null),
    ("naming_checks", (arguments.naming.map Data.bool).getD .null)]

/-- Lints loaded documents, writes what is fixed and prints the report. -/
def finishCheck (tree : FileTree) (arguments : CheckArguments) (options : Options)
    (documents : List Path) (units : List SourceUnit) (log : List String) : Outcome :=
  let shown (lines : List String) : List String := if arguments.verbose then lines else []
  let workers : Option Int := if arguments.jobs = 0 then none else some arguments.jobs
  match lintMany options arguments.fix workers units with
  | .error failure => stopped tree log (.crash (.lint failure))
  | .ok results =>
    let log := log ++ shown (results.flatMap resultLog)
    let written := if arguments.fix then writeFixes arguments tree (documents.zip results)
      else { tree }
    let stderr := printed (log ++ shown written.log)
    match written.failure with
    | some cause => { tree := written.tree, stderr, ending := .crash cause }
    | none =>
      let report : Report := ⟨results, options.threshold⟩
      match report.render? arguments.format with
      | none => { tree := written.tree, stderr, ending := .crash .integerTooLong }
      | some text =>
        { tree := written.tree
          stdout := printed [shownLine text]
          stderr
          ending := .exit report.exitCode }

def check (tree : FileTree) (arguments : CheckArguments) : Outcome :=
  match resolveOptions tree arguments.root arguments.config (checkSettings arguments) with
  | .error outcome => outcome
  | .ok options =>
    match discover tree arguments.paths with
    | .error cause => stopped tree [] (.crash cause)
    | .ok [] => stopped tree ["no syntax-tree documents found"] (.exit 2)
    | .ok documents =>
      let (loadLog, loaded) := loadAll tree documents
      let log := if arguments.verbose then loadLog else []
      match loaded with
      | .error (.crash cause) => stopped tree log (.crash cause)
      | .error (.refused path e) =>
        stopped tree (log ++ [shownLine ("error: " ++ e.message path.text)]) (.exit 2)
      | .ok units => finishCheck tree arguments options documents units log

def sectionLine (options : Options) (place : Section) : String :=
  let number := toString (options.order.position place + 1)
  let padded := if number.length < 2 then " " ++ number else number
  padded ++ ". " ++ place.title ++ " (" ++ place.id ++ ", " ++
    (if options.sortable.contains place then "sorted" else "source order") ++ ")"

/-- Prints the section order. -/
def sections (tree : FileTree) (arguments : SectionsArguments) : Outcome :=
  match resolveOptions tree arguments.root arguments.config [] with
  | .error outcome => outcome
  | .ok options =>
    { tree
      stdout := printed (options.order.sections.map (sectionLine options))
      ending := .exit 0 }

/-- Runs a command line on a file tree. -/
def run (tree : FileTree) (arguments : List String) : Outcome :=
  match parse? arguments with
  | none => { tree, ending := .usage }
  | some (.check parsed) => check tree parsed
  | some (.sections parsed) => sections tree parsed

end ComponentLint.Command
