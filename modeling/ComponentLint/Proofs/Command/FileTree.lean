import ComponentLint.Command.FileTree
import ComponentLint.Proofs.Lists
import Mathlib.Data.List.Basic
/-
  File trees whose files and directories have the same names (`SameNames`). Where a path leads
  depends on the names alone, so writing to files that are there leaves all other paths as they are.
-/

namespace ComponentLint.Command.FileTree

/-- The trees have the same files and directories, with whatever contents. -/
structure SameNames (tree after : FileTree) : Prop where
  directories : after.directories = tree.directories
  files : after.files.map Prod.fst = tree.files.map Prod.fst

theorem SameNames.refl (tree : FileTree) : SameNames tree tree :=
  ⟨rfl, rfl⟩

variable {tree mid after : FileTree}

theorem SameNames.trans (h : SameNames tree mid) (k : SameNames mid after) :
    SameNames tree after :=
  ⟨k.directories.trans h.directories, k.files.trans h.files⟩

/-- Writing to a file that is there. -/
theorem SameNames.put {names : List String} (h : names ∈ tree.files.map Prod.fst)
    (content : ByteArray) :
    SameNames tree { tree with files := tree.files.put names content } :=
  ⟨rfl, Assoc.map_fst_put_of_mem h content⟩

theorem SameNames.isDirectory (h : SameNames tree after) (names : List String) :
    after.isDirectory names = tree.isDirectory names := by
  have hany : ∀ t : FileTree,
      (t.files.any fun file => names.isPrefixOf file.1 && names.length < file.1.length) =
        (t.files.map Prod.fst).any fun other =>
          names.isPrefixOf other && names.length < other.length := fun t => by
    rw [List.any_map]
    rfl
  unfold FileTree.isDirectory
  rw [hany, hany, h.files, h.directories]

theorem SameNames.isSome_lookup (h : SameNames tree after) (names : List String) :
    (after.files.lookup names).isSome = (tree.files.lookup names).isSome := by
  rw [Bool.eq_iff_iff, Assoc.isSome_lookup_iff, Assoc.isSome_lookup_iff, h.files]

theorem SameNames.follow (h : SameNames tree after) (here names : List String) :
    after.follow here names = tree.follow here names := by
  induction names generalizing here with
  | nil => rfl
  | cons name names ih =>
    unfold FileTree.follow
    rw [h.isDirectory, h.isSome_lookup, ih]

/-- A path leads to the same place in both trees. -/
theorem SameNames.resolve (h : SameNames tree after) (path : Path) :
    after.resolve path = tree.resolve path := by
  unfold FileTree.resolve
  rw [h.follow]

/-- What a file that is read holds. -/
theorem read_eq_ok_iff {path : Path} {content : ByteArray} :
    tree.read path = .ok content ↔
      ∃ names, tree.resolve path = .ok names ∧ tree.files.lookup names = some content := by
  unfold read
  cases hresolve : tree.resolve path with
  | error failure => simp [Except.bind]
  | ok names =>
    cases hlookup : tree.files.lookup names with
    | none => simp [Except.bind, hlookup]
    | some old => simp [Except.bind, hlookup]

end ComponentLint.Command.FileTree
