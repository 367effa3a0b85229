import ComponentLint.Lists
import ComponentLint.Text.Basic
/-
  Paths and the part of a file system that a command works on.
-/

namespace ComponentLint.Command

/-- The names along a path. An absolute path begins with the name `/`. -/
structure Path where
  names : List String
deriving Repr, DecidableEq, Inhabited

namespace Path

/-- Empty names and single dots along a path do not count. -/
def parse (text : String) : Path :=
  let names := ((Text.splitAt '/' text.toList).map String.ofList).filter fun name =>
    name != "" && name != "."
  ⟨if text.toList.head? == some '/' then "/" :: names else names⟩

def text (path : Path) : String :=
  match path.names with
  | [] => "."
  | "/" :: names => "/" ++ "/".intercalate names
  | names => "/".intercalate names

/-- A path seen from another one; an absolute path stays as it is. -/
def join (base path : Path) : Path :=
  if path.names.head? == some "/" then path else ⟨base.names ++ path.names⟩

end Path

/-- One name further from a place. Two dots lead back up, and above the place where all names
begin they are kept. -/
def step (here : List String) (name : String) : List String :=
  if name ≠ ".." || here.all (· == "..") then here ++ [name] else here.dropLast

/-- Files with their contents, and directories, by the names that lead to them. The directories
on the way to a file or directory are there too, and so are those above. -/
structure FileTree where
  files : Assoc (List String) ByteArray := []
  directories : List (List String) := []

/-- Why a file cannot be reached, read or written. -/
inductive AccessFailure where
  | missing
  | isDirectory
  | notADirectory
  | nameTooLong
  /-- A name holds the character that ends names. -/
  | unnameable
deriving Repr, DecidableEq

namespace FileTree

def isDirectory (tree : FileTree) (names : List String) : Bool :=
  names.all (· == "..") || tree.directories.any names.isPrefixOf ||
    tree.files.any fun file => names.isPrefixOf file.1 && names.length < file.1.length

/-- The most bytes that a name and a path may have. -/
def maxName : Nat := 255

def maxPath : Nat := 4095

/-- Follows names from one place to another. Every name but the last has to lead to a
directory. -/
def follow (tree : FileTree) (here : List String) :
    List String → Except AccessFailure (List String)
  | [] => .ok here
  | name :: names =>
    if !tree.isDirectory here then
      .error (if (tree.files.lookup here).isSome then .notADirectory else .missing)
    else if maxName < name.utf8ByteSize then .error .nameTooLong
    else follow tree (step here name) names

/-- The place that a path leads to, where there may be a file, a directory or nothing. -/
def resolve (tree : FileTree) (path : Path) : Except AccessFailure (List String) :=
  if path.names.any (·.toList.contains '\x00') then .error .unnameable
  else if maxPath < path.text.utf8ByteSize then .error .nameTooLong
  else tree.follow [] path.names

def read (tree : FileTree) (path : Path) : Except AccessFailure ByteArray :=
  (tree.resolve path).bind fun names =>
    match tree.files.lookup names with
    | some content => .ok content
    | none => .error (if tree.isDirectory names then .isDirectory else .missing)

/-- Writes a file whose directory has to be there. -/
def write (tree : FileTree) (path : Path) (content : ByteArray) : Except AccessFailure FileTree :=
  (tree.resolve path).bind fun names =>
    if tree.isDirectory names then .error .isDirectory
    else .ok { tree with files := tree.files.put names content }

/-- Order of paths, name by name. -/
def namesLe : List String → List String → Bool
  | [], _ => true
  | _ :: _, [] => false
  | a :: as, b :: bs => a < b || (a == b && namesLe as bs)

/-- The files below a directory whose names end in a given text, in the order of their paths. -/
def filesBelow (tree : FileTree) (path : Path) (ending : String) : List Path :=
  match tree.resolve path with
  | .error _ => []
  | .ok names =>
    let below := tree.files.filterMap fun file => names.isPrefixOf? file.1
    let wanted := below.filter fun rest => rest.getLast?.any (·.endsWith ending)
    (sortBy namesLe wanted).map fun rest => ⟨path.names ++ rest⟩

/-- The files of a tree that another one does not have with the same content. -/
def changesSince (before after : FileTree) : List (List String × ByteArray) :=
  after.files.filter fun file => !(before.files.lookup file.1).any (· == file.2)

end FileTree

end ComponentLint.Command
