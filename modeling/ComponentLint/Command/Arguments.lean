import ComponentLint.Command.FileTree
import ComponentLint.Number.IntegerText
import ComponentLint.Report.Render
/-
  The command line: commands, their options and how they are written.

  Options and other arguments may be mixed, a value follows its option as the next argument or
  after an equals sign, and nothing behind `--` is an option. Of an option given more than once
  the last value counts, and only that one has to make sense.
-/

namespace ComponentLint.Command

structure CheckArguments where
  paths : List Path := []
  fix : Bool := false
  format : OutputFormat := .text
  threshold : Option String := none
  config : Option Path := none
  naming : Option Bool := none
  writeSource : Bool := false
  root : Path := ⟨[]⟩
  /-- The number of units to work on at the same time; zero leaves it open. -/
  jobs : Nat := 0
  verbose : Bool := false
deriving Repr

structure SectionsArguments where
  config : Option Path := none
  root : Path := ⟨[]⟩
deriving Repr

inductive Invocation where
  | check (arguments : CheckArguments)
  | sections (arguments : SectionsArguments)
deriving Repr

/-- What an option does to the arguments read so far. -/
inductive OptionEffect (σ : Type) where
  | flag (apply : σ → σ)
  | valued (apply : σ → String → σ)

/-- The options and other arguments of a command. -/
structure Grammar (σ : Type) where
  long : String → Option (OptionEffect σ)
  short : Char → Option (σ → σ)
  positional : σ → String → Option σ

namespace Grammar

variable {σ : Type}

/-- Cuts an argument at its first equals sign. -/
def cutValue (argument : String) : String × Option String :=
  let name := argument.toList.takeWhile (· ≠ '=')
  match argument.toList.dropWhile (· ≠ '=') with
  | [] => (argument, none)
  | _ :: value => (String.ofList name, some (String.ofList value))

/-- One-letter options written together. -/
def shortFlags (grammar : Grammar σ) (state : σ) : List Char → Option σ
  | [] => some state
  | c :: cs => (grammar.short c).bind fun apply => grammar.shortFlags (apply state) cs

def isOption (argument : String) : Bool :=
  argument.startsWith "-" && argument != "-"

def positionals (grammar : Grammar σ) (state : σ) : List String → Option σ
  | [] => some state
  | argument :: rest => (grammar.positional state argument).bind fun state =>
      grammar.positionals state rest

def read (grammar : Grammar σ) (state : σ) : List String → Option σ
  | [] => some state
  | argument :: rest =>
    if argument = "--" then grammar.positionals state rest
    else if isOption argument then
      let (name, value) := cutValue argument
      match grammar.long name, value with
      | some (.flag apply), none => grammar.read (apply state) rest
      | some (.flag _), some _ => none
      | some (.valued apply), some value => grammar.read (apply state value) rest
      | some (.valued apply), none =>
        match rest with
        | [] => none
        | value :: rest => grammar.read (apply state value) rest
      | none, _ =>
        if argument.startsWith "--" then none
        else (grammar.shortFlags state (argument.toList.drop 1)).bind fun state =>
          grammar.read state rest
    else (grammar.positional state argument).bind fun state => grammar.read state rest

end Grammar

/-- The arguments of a check as they are written. -/
structure CheckWords where
  paths : List String := []
  fix : Bool := false
  format : String := "text"
  threshold : Option String := none
  config : Option String := none
  naming : Option Bool := none
  writeSource : Bool := false
  root : String := "."
  jobs : String := "0"
  verbose : Bool := false

/-- The arguments of a list of the sections as they are written. -/
structure SectionsWords where
  config : Option String := none
  root : String := "."

/-- A number of jobs, written as integers in documents are: `1.0` is one job, and `1.` is no
number. -/
def jobCount? (word : String) : Option Nat :=
  match IntegerText.read word with
  | .ok (.ofNat n) => some n
  | _ => none

/-- A path, in which no null character may stand. -/
def path? (word : String) : Option Path :=
  if word.toList.contains '\x00' then none else some (.parse word)

def paths? : List String → Option (List Path)
  | [] => some []
  | word :: words => (path? word).bind fun path => (paths? words).map (path :: ·)

/-- A path that need not be given. -/
def optionalPath? : Option String → Option (Option Path)
  | none => some none
  | some word => (path? word).map some

/-- The arguments that the words stand for; a check needs a path. -/
def CheckWords.read? (words : CheckWords) : Option CheckArguments := do
  let paths ← paths? words.paths
  let format ← OutputFormat.ofId? words.format
  let config ← optionalPath? words.config
  let root ← path? words.root
  let jobs ← jobCount? words.jobs
  if paths.isEmpty then none
  else some {
    paths, fix := words.fix, format, threshold := words.threshold, config, naming := words.naming,
    writeSource := words.writeSource, root, jobs, verbose := words.verbose }

def SectionsWords.read? (words : SectionsWords) : Option SectionsArguments := do
  let config ← optionalPath? words.config
  let root ← path? words.root
  return { config, root }

def checkOption : String → Option (OptionEffect CheckWords)
  | "--fix" => some (.flag fun words => { words with fix := true })
  | "--format" => some (.valued fun words format => { words with format })
  | "--severity-threshold" =>
    some (.valued fun words value => { words with threshold := some value })
  | "--config" => some (.valued fun words value => { words with config := some value })
  | "--naming" => some (.flag fun words => { words with naming := some true })
  | "--no-naming" => some (.flag fun words => { words with naming := some false })
  | "--write-source" => some (.flag fun words => { words with writeSource := true })
  | "--root" => some (.valued fun words root => { words with root })
  | "--jobs" => some (.valued fun words jobs => { words with jobs })
  | "--verbose" => some (.flag fun words => { words with verbose := true })
  | _ => none

def checkGrammar : Grammar CheckWords where
  long := checkOption
  short c := if c = 'v' then some fun words => { words with verbose := true } else none
  positional words path := some { words with paths := words.paths ++ [path] }

def sectionsGrammar : Grammar SectionsWords where
  long
    | "--config" => some (.valued fun words value => { words with config := some value })
    | "--root" => some (.valued fun words root => { words with root })
    | _ => none
  short _ := none
  positional _ _ := none

/-- The command that a name and its arguments stand for. -/
def ofName? (name : String) (arguments : List String) : Option Invocation :=
  if name = "check" then ((checkGrammar.read {} arguments).bind CheckWords.read?).map .check
  else if name = "sections" then
    ((sectionsGrammar.read {} arguments).bind SectionsWords.read?).map .sections
  else none

/-- The command that a command line stands for. -/
def parse? : List String → Option Invocation
  | [] => none
  | "--" :: name :: arguments => ofName? name arguments
  | name :: arguments => ofName? name arguments

end ComponentLint.Command
