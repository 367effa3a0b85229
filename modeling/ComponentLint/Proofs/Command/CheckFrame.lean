import ComponentLint.Command.Run
import ComponentLint.Proofs.Command.Arguments
import ComponentLint.Proofs.Command.FileTree
import Mathlib.Data.List.Forall2
/-
  What a check does to the files of a tree. Every document is read before any is written, so a check
  that stops on its configuration, without documents or at a document that cannot be loaded leaves
  the tree as it is, and so does one that is not asked to fix. A check that fixes and does not write
  sources writes to discovered documents only, and to each the dump of the fixed unit of what the
  document held before the run (`OnlyFixed`). A document may be found by several paths: it is
  written once for each, with the same bytes.
-/

namespace ComponentLint.Command

/-! ## One document -/

/-- The new content is the dump of the fixed unit that the old content holds. -/
def DumpOfFix (options : Options) (old new : ByteArray) : Prop :=
  ∃ unit result fixed text, Document.readBytes old = .ok unit ∧
    lint options true unit = .ok result ∧ result.fixed = true ∧ result.fixedUnit = some fixed ∧
    Document.render? fixed = some text ∧ new = text.toUTF8

theorem DumpOfFix.unique {options : Options} {old new other : ByteArray}
    (h : DumpOfFix options old new) (k : DumpOfFix options old other) : new = other := by
  obtain ⟨unit, result, fixed, text, hread, hlint, -, hfixed, htext, rfl⟩ := h
  obtain ⟨unit', result', fixed', text', hread', hlint', -, hfixed', htext', rfl⟩ := k
  cases hread.symm.trans hread'
  cases hlint.symm.trans hlint'
  cases hfixed.symm.trans hfixed'
  cases htext.symm.trans htext'
  rfl

/-- The result is that of linting what the file at the path holds. -/
def LintedAt (options : Options) (tree : FileTree) (path : Path) (result : LintResult) : Prop :=
  ∃ names old unit, tree.resolve path = .ok names ∧ tree.files.lookup names = some old ∧
    Document.readBytes old = .ok unit ∧ lint options true unit = .ok result

section

variable {options : Options} {arguments : CheckArguments} {tree mid : FileTree}

/-- Either nothing is written, because the unit is not fixed or on a failure, or the dump is. -/
theorem writeFix_cases (hsource : arguments.writeSource = false) (hnames : tree.SameNames mid)
    {path : Path} {names : List String} {old : ByteArray} {unit : SourceUnit} {result : LintResult}
    (hresolve : tree.resolve path = .ok names) (hread : Document.readBytes old = .ok unit)
    (hlint : lint options true unit = .ok result) :
    ((writeFix arguments mid path result).tree = mid ∧
      ((writeFix arguments mid path result).failure = none → ∀ new, ¬ DumpOfFix options old new)) ∨
    ∃ new, DumpOfFix options old new ∧
      (writeFix arguments mid path result).tree =
        { mid with files := mid.files.put names new } := by
  have hno : ¬ (∃ fixed, result.fixed = true ∧ result.fixedUnit = some fixed) →
      ∀ new, ¬ DumpOfFix options old new := by
    rintro hnone new ⟨unit', result', fixed, text, hread', hlint', hisFixed, hfixed, -, -⟩
    cases hread.symm.trans hread'
    cases hlint.symm.trans hlint'
    exact hnone ⟨fixed, hisFixed, hfixed⟩
  unfold writeFix
  cases hisFixed : result.fixed with
  | false => exact Or.inl ⟨rfl, fun _ => hno (by simp [hisFixed])⟩
  | true =>
    cases hfixed : result.fixedUnit with
    | none => exact Or.inl ⟨rfl, fun _ => hno (by simp [hfixed])⟩
    | some fixed =>
      cases htext : Document.render? fixed with
      | none => exact Or.inl ⟨by simp only [htext], by simp [htext]⟩
      | some text =>
        have hdump : DumpOfFix options old text.toUTF8 :=
          ⟨unit, result, fixed, text, hread, hlint, hisFixed, hfixed, htext, rfl⟩
        have hwrite : mid.write path text.toUTF8 = if mid.isDirectory names then .error .isDirectory
            else .ok { mid with files := mid.files.put names text.toUTF8 } := by
          unfold FileTree.write
          rw [hnames.resolve, hresolve]
          rfl
        by_cases hdirectory : mid.isDirectory names = true
        · rw [if_pos hdirectory] at hwrite
          exact Or.inl ⟨by simp only [htext, hwrite], by simp only [htext, hwrite]; exact nofun⟩
        · rw [if_neg hdirectory] at hwrite
          exact Or.inr ⟨_, hdump, by simp only [htext, hwrite, hsource]⟩

end

/-! ## All documents -/

/-- The trees differ at most in documents that are fixed, and these hold the dump of their fixed
unit. -/
structure OnlyFixed (options : Options) (documents : List Path) (tree after : FileTree) : Prop where
  names : tree.SameNames after
  changed : ∀ names, after.files.lookup names ≠ tree.files.lookup names →
    ∃ path ∈ documents, tree.resolve path = .ok names ∧
      ∃ old new, tree.files.lookup names = some old ∧ DumpOfFix options old new ∧
        after.files.lookup names = some new

section

variable {options : Options} {arguments : CheckArguments} {documents : List Path}
  {tree mid : FileTree}

theorem OnlyFixed.refl (options : Options) (documents : List Path) (tree : FileTree) :
    OnlyFixed options documents tree tree :=
  ⟨.refl tree, fun _ h => absurd rfl h⟩

/-- Writing one more dump. -/
theorem OnlyFixed.put (h : OnlyFixed options documents tree mid) {path : Path}
    (hpath : path ∈ documents) {names : List String} {old new : ByteArray}
    (hresolve : tree.resolve path = .ok names) (hold : tree.files.lookup names = some old)
    (hdump : DumpOfFix options old new) :
    OnlyFixed options documents tree
      { mid with files := mid.files.put names new } := by
  have hthere : names ∈ mid.files.map Prod.fst := by
    rw [h.names.files, ← Assoc.isSome_lookup_iff, hold]
    rfl
  refine ⟨h.names.trans (.put hthere new), fun other hchanged => ?_⟩
  rw [Assoc.lookup_put] at hchanged ⊢
  by_cases hother : other = names
  · rw [if_pos hother, hother]
    exact ⟨path, hpath, hresolve, old, new, hold, hdump, rfl⟩
  · rw [if_neg hother] at hchanged ⊢
    exact h.changed other hchanged

theorem writeFix_onlyFixed (hsource : arguments.writeSource = false)
    (h : OnlyFixed options documents tree mid) {path : Path} (hpath : path ∈ documents)
    {result : LintResult} (hlinted : LintedAt options tree path result) :
    OnlyFixed options documents tree (writeFix arguments mid path result).tree := by
  obtain ⟨names, old, unit, hresolve, hold, hread, hlint⟩ := hlinted
  rcases writeFix_cases hsource h.names hresolve hread hlint with ⟨hsame, -⟩ | ⟨new, hdump, heq⟩
  · rw [hsame]
    exact h
  · rw [heq]
    exact h.put hpath hresolve hold hdump

theorem writeFixes_onlyFixed (hsource : arguments.writeSource = false)
    (pairs : List (Path × LintResult))
    (hpairs : ∀ pair ∈ pairs, pair.1 ∈ documents ∧ LintedAt options tree pair.1 pair.2)
    (h : OnlyFixed options documents tree mid) :
    OnlyFixed options documents tree (writeFixes arguments mid pairs).tree := by
  induction pairs generalizing mid with
  | nil => exact h
  | cons pair pairs ih =>
    obtain ⟨hpath, hlinted⟩ := hpairs pair List.mem_cons_self
    have hfirst := writeFix_onlyFixed hsource h hpath hlinted
    unfold writeFixes
    dsimp only
    split
    · exact hfirst
    · exact ih (fun other hother => hpairs other (List.mem_cons_of_mem pair hother)) hfirst

/-- A dump that is written stays: another path to the same file brings the same dump. -/
theorem lookup_writeFixes_of_dump (hsource : arguments.writeSource = false)
    {pairs : List (Path × LintResult)}
    (hpairs : ∀ pair ∈ pairs, pair.1 ∈ documents ∧ LintedAt options tree pair.1 pair.2)
    (h : OnlyFixed options documents tree mid) {names : List String} {old new : ByteArray}
    (hold : tree.files.lookup names = some old) (hdump : DumpOfFix options old new)
    (hnew : mid.files.lookup names = some new) :
    (writeFixes arguments mid pairs).tree.files.lookup names = some new := by
  induction pairs generalizing mid with
  | nil => exact hnew
  | cons pair pairs ih =>
    obtain ⟨hpath, hlinted⟩ := hpairs pair List.mem_cons_self
    have hfirst := writeFix_onlyFixed hsource h hpath hlinted
    have hkept : (writeFix arguments mid pair.1 pair.2).tree.files.lookup names = some new := by
      obtain ⟨other, old', unit, hresolve, hold', hread, hlint⟩ := hlinted
      rcases writeFix_cases hsource h.names hresolve hread hlint with
        ⟨hsame, -⟩ | ⟨new', hdump', heq⟩
      · rw [hsame]
        exact hnew
      · rw [heq, Assoc.lookup_put]
        split
        · next hother =>
          rw [← hother, hold] at hold'
          rw [hdump'.unique (Option.some.inj hold' ▸ hdump)]
        · exact hnew
    unfold writeFixes
    dsimp only
    split
    · exact hkept
    · exact ih (fun other hother => hpairs other (List.mem_cons_of_mem pair hother)) hfirst hkept

/-- If no write fails, every document that is fixed holds its dump. -/
theorem lookup_writeFixes (hsource : arguments.writeSource = false)
    {pairs : List (Path × LintResult)}
    (hpairs : ∀ pair ∈ pairs, pair.1 ∈ documents ∧ LintedAt options tree pair.1 pair.2)
    (h : OnlyFixed options documents tree mid)
    (hdone : (writeFixes arguments mid pairs).failure = none)
    {path : Path} {result : LintResult} (hpair : (path, result) ∈ pairs) {names : List String}
    {old new : ByteArray} (hresolve : tree.resolve path = .ok names)
    (hold : tree.files.lookup names = some old) (hdump : DumpOfFix options old new) :
    (writeFixes arguments mid pairs).tree.files.lookup names = some new := by
  induction pairs generalizing mid with
  | nil => exact nomatch hpair
  | cons pair pairs ih =>
    obtain ⟨hpath, hlinted⟩ := hpairs pair List.mem_cons_self
    have hfirst := writeFix_onlyFixed hsource h hpath hlinted
    have hrest := fun other hother => hpairs other (List.mem_cons_of_mem pair hother)
    unfold writeFixes at hdone ⊢
    dsimp only at hdone ⊢
    split at hdone
    · next hfailed =>
      rw [hdone] at hfailed
      exact nomatch hfailed
    · next hwritten =>
      rw [if_neg hwritten]
      rcases List.mem_cons.1 hpair with rfl | hpair
      · refine lookup_writeFixes_of_dump hsource hrest hfirst hold hdump ?_
        obtain ⟨names', old', unit, hresolve', hold', hread, hlint⟩ := hlinted
        cases hresolve.symm.trans hresolve'
        cases hold.symm.trans hold'
        rcases writeFix_cases hsource h.names hresolve hread hlint with
          ⟨-, hnone⟩ | ⟨new', hdump', heq⟩
        · exact absurd hdump (hnone (by simpa using hwritten) new)
        · rw [heq, Assoc.lookup_put, if_pos rfl, hdump'.unique hdump]
      · exact ih hrest hfirst hdone hpair

end

/-! ## A whole check -/

theorem loadAll_cons {tree : FileTree} {path : Path} {unit : SourceUnit}
    (h : loadDocument tree path = .ok unit) (documents : List Path) :
    (loadAll tree (path :: documents)).2 = (loadAll tree documents).2.map (unit :: ·) := by
  rw [loadAll]
  simp only [h]

/-- All documents are loaded from one tree. -/
theorem loadAll_eq_ok_iff {tree : FileTree} {documents : List Path} {units : List SourceUnit} :
    (loadAll tree documents).2 = .ok units ↔
      List.Forall₂ (fun path unit => loadDocument tree path = .ok unit) documents units := by
  induction documents generalizing units with
  | nil =>
    rw [List.forall₂_nil_left_iff]
    exact ⟨fun h => (Except.ok.inj h).symm, fun h => h ▸ rfl⟩
  | cons path documents ih =>
    rw [List.forall₂_cons_left_iff]
    cases hload : loadDocument tree path with
    | error failure =>
      rw [loadAll]
      simp [hload]
    | ok unit =>
      rw [loadAll_cons hload]
      constructor
      · intro h
        cases hrest : (loadAll tree documents).2 with
        | error failure =>
          rw [hrest] at h
          exact nomatch h
        | ok rest =>
          rw [hrest] at h
          exact ⟨unit, rest, rfl, ih.1 hrest, (Except.ok.inj h).symm⟩
      · rintro ⟨unit', rest, hunit, hrest, rfl⟩
        cases hunit
        rw [ih.2 hrest]
        rfl

theorem lintAll_eq_ok {options : Options} {fix : Bool} {units : List SourceUnit}
    {results : List LintResult} (h : lintAll options fix units = .ok results) :
    List.Forall₂ (fun unit result => lint options fix unit = .ok result) units results := by
  induction units generalizing results with
  | nil =>
    cases h
    exact .nil
  | cons unit units ih =>
    unfold lintAll at h
    cases hfirst : lint options fix unit with
    | error failure =>
      rw [hfirst] at h
      exact nomatch h
    | ok first =>
      cases hrest : lintAll options fix units with
      | error failure =>
        rw [hfirst, hrest] at h
        exact nomatch h
      | ok rest =>
        rw [hfirst, hrest] at h
        cases h
        exact .cons hfirst (ih hrest)

/-- No number of jobs, and any number that can be given, is enough. -/
theorem lintMany_jobs (options : Options) (fix : Bool) (jobs : Nat) (units : List SourceUnit) :
    lintMany options fix (if jobs = 0 then none else some (jobs : Int)) units =
      lintAll options fix units := by
  have hworkers : (if jobs = 0 then none else some (jobs : Int)).any (· ≤ 0) = false := by
    split
    · rfl
    · next hpos => simpa using hpos
  rw [lintMany, hworkers, Bool.and_false]
  rfl

theorem lintedAt_of_loadDocument {options : Options} {tree : FileTree} {path : Path}
    {unit : SourceUnit} {result : LintResult} (hload : loadDocument tree path = .ok unit)
    (hlint : lint options true unit = .ok result) : LintedAt options tree path result := by
  unfold loadDocument at hload
  split at hload
  · exact nomatch hload
  · next bytes hread =>
    obtain ⟨names, hresolve, hold⟩ := FileTree.read_eq_ok_iff.1 hread
    split at hload
    · next unit' hunit =>
      cases hload
      exact ⟨names, bytes, _, hresolve, hold, hunit, hlint⟩
    · exact nomatch hload
    · exact nomatch hload
    · exact nomatch hload

theorem exists_mem_zip {α β : Type} {l : List α} {m : List β} (hlen : l.length = m.length) {a : α}
    (ha : a ∈ l) : ∃ b, (a, b) ∈ l.zip m := by
  rw [← List.map_fst_zip (Nat.le_of_eq hlen), List.mem_map] at ha
  obtain ⟨⟨_, b⟩, hab, rfl⟩ := ha
  exact ⟨b, hab⟩

/-- Results stay with their documents by position. -/
theorem lintedAt_of_mem_zip {options : Options} {tree : FileTree} {documents : List Path}
    {units : List SourceUnit} {results : List LintResult}
    (hloaded : List.Forall₂ (fun path unit => loadDocument tree path = .ok unit) documents units)
    (hlinted : List.Forall₂ (fun unit result => lint options true unit = .ok result) units results) :
    ∀ pair ∈ documents.zip results, pair.1 ∈ documents ∧ LintedAt options tree pair.1 pair.2 := by
  intro pair hpair
  refine ⟨(List.of_mem_zip hpair).1, ?_⟩
  induction hloaded generalizing results with
  | nil => simp at hpair
  | cons hload _ ih =>
    cases hlinted with
    | cons hlint hlinted =>
      rcases List.mem_cons.1 hpair with rfl | hpair
      · exact lintedAt_of_loadDocument hload hlint
      · exact ih hlinted hpair

/-- A check that comes to its documents has options, documents, and all of them loaded. -/
structure Ready (tree : FileTree) (arguments : CheckArguments) (options : Options)
    (documents : List Path) (units : List SourceUnit) : Prop where
  resolved : resolveOptions tree arguments.root arguments.config (checkSettings arguments) =
    .ok options
  discovered : discover tree arguments.paths = .ok documents
  found : documents ≠ []
  loaded : List.Forall₂ (fun path unit => loadDocument tree path = .ok unit) documents units

theorem resolveOptions_error {tree : FileTree} {root : Path} {config : Option Path}
    {settings : Options.Table} {outcome : Outcome}
    (h : resolveOptions tree root config settings = .error outcome) : outcome.tree = tree := by
  unfold resolveOptions at h
  dsimp only at h
  split at h
  · cases h
    rfl
  · split at h
    · exact nomatch h
    · cases h
      rfl
    · cases h
      rfl

/-- A check stops with the tree as it is, or comes to its documents. -/
theorem check_cases (tree : FileTree) (arguments : CheckArguments) :
    ((check tree arguments).tree = tree ∧
      ¬ ∃ options documents units, Ready tree arguments options documents units) ∨
    ∃ options documents units log, Ready tree arguments options documents units ∧
      check tree arguments = finishCheck tree arguments options documents units log := by
  unfold check
  cases hoptions : resolveOptions tree arguments.root arguments.config (checkSettings arguments) with
  | error outcome =>
    refine Or.inl ⟨resolveOptions_error hoptions, ?_⟩
    rintro ⟨options, documents, units, hready⟩
    exact nomatch hoptions.symm.trans hready.resolved
  | ok options =>
    cases hdocuments : discover tree arguments.paths with
    | error cause =>
      refine Or.inl ⟨rfl, ?_⟩
      rintro ⟨options, documents, units, hready⟩
      exact nomatch hdocuments.symm.trans hready.discovered
    | ok documents =>
      cases documents with
      | nil =>
        refine Or.inl ⟨rfl, ?_⟩
        rintro ⟨options, documents, units, hready⟩
        cases hdocuments.symm.trans hready.discovered
        exact hready.found rfl
      | cons path documents =>
        cases hload : (loadAll tree (path :: documents)).2 with
        | error failure =>
          refine Or.inl ⟨?_, ?_⟩
          · cases failure with
            | crash cause => simp only [hload, stopped]
            | refused other e => simp only [hload, stopped]
          · rintro ⟨options, documents, units, hready⟩
            cases hdocuments.symm.trans hready.discovered
            exact nomatch hload.symm.trans (loadAll_eq_ok_iff.2 hready.loaded)
        | ok units =>
          refine Or.inr ⟨options, path :: documents, units,
            if arguments.verbose then (loadAll tree (path :: documents)).1 else [],
            ⟨hoptions, hdocuments, List.cons_ne_nil _ _, loadAll_eq_ok_iff.1 hload⟩, ?_⟩
          simp only [hload]

theorem finishCheck_tree_of_not_fix {arguments : CheckArguments} (h : arguments.fix = false)
    (tree : FileTree) (options : Options) (documents : List Path) (units : List SourceUnit)
    (log : List String) :
    (finishCheck tree arguments options documents units log).tree = tree := by
  unfold finishCheck
  dsimp only
  rw [h, lintMany_jobs]
  cases lintAll options false units with
  | error failure => rfl
  | ok results =>
    simp only [Bool.false_eq_true, if_false]
    split
    · rfl
    · rfl

/-- A check that fixes leaves the tree as it is or as its writes leave it, and if it ends with a
code of its own then no write failed. -/
theorem finishCheck_cases {arguments : CheckArguments} (h : arguments.fix = true)
    (tree : FileTree) (options : Options) (documents : List Path) (units : List SourceUnit)
    (log : List String) :
    ((finishCheck tree arguments options documents units log).tree = tree ∧
      ∀ code, (finishCheck tree arguments options documents units log).ending ≠ .exit code) ∨
    ∃ results, lintAll options true units = .ok results ∧
      (finishCheck tree arguments options documents units log).tree =
        (writeFixes arguments tree (documents.zip results)).tree ∧
      ∀ code, (finishCheck tree arguments options documents units log).ending = .exit code →
        (writeFixes arguments tree (documents.zip results)).failure = none := by
  unfold finishCheck
  dsimp only
  rw [h, lintMany_jobs]
  cases hlint : lintAll options true units with
  | error failure => exact Or.inl ⟨rfl, nofun⟩
  | ok results =>
    refine Or.inr ⟨results, rfl, ?_⟩
    simp only [if_true]
    cases hfailure : (writeFixes arguments tree (documents.zip results)).failure with
    | some cause => exact ⟨rfl, nofun⟩
    | none =>
      refine ⟨?_, fun _ _ => rfl⟩
      dsimp only
      split
      · rfl
      · rfl

/-- What a check may do to the files of a tree. -/
structure CheckFrame (tree : FileTree) (arguments : CheckArguments) (outcome : Outcome) : Prop where
  /-- It stops on its configuration. -/
  configuration :
    (∀ options, resolveOptions tree arguments.root arguments.config (checkSettings arguments) ≠
      .ok options) → outcome.tree = tree
  /-- It finds no document. -/
  discovery : (∀ documents, discover tree arguments.paths = .ok documents → documents = []) →
    outcome.tree = tree
  /-- One of the documents, which may be the last, cannot be loaded. -/
  loading : ∀ documents, discover tree arguments.paths = .ok documents →
    (∃ path ∈ documents, ∀ unit, loadDocument tree path ≠ .ok unit) → outcome.tree = tree
  unasked : arguments.fix = false → outcome.tree = tree
  /-- Without sources, only documents that are fixed are written to. -/
  written : arguments.writeSource = false → ∀ options documents,
    resolveOptions tree arguments.root arguments.config (checkSettings arguments) = .ok options →
    discover tree arguments.paths = .ok documents →
    OnlyFixed options documents tree outcome.tree
  /-- A check that does not break off writes all of them. -/
  complete : arguments.fix = true → arguments.writeSource = false → ∀ options documents units code,
    Ready tree arguments options documents units → outcome.ending = .exit code →
    ∀ path ∈ documents, ∀ names old new, tree.resolve path = .ok names →
      tree.files.lookup names = some old → DumpOfFix options old new →
      outcome.tree.files.lookup names = some new

theorem Ready.unique {tree : FileTree} {arguments : CheckArguments} {options options' : Options}
    {documents documents' : List Path} {units units' : List SourceUnit}
    (h : Ready tree arguments options documents units)
    (k : Ready tree arguments options' documents' units') :
    options = options' ∧ documents = documents' ∧ units = units' := by
  cases h.resolved.symm.trans k.resolved
  cases h.discovered.symm.trans k.discovered
  have hunits := (loadAll_eq_ok_iff.2 h.loaded).symm.trans (loadAll_eq_ok_iff.2 k.loaded)
  exact ⟨rfl, rfl, Except.ok.inj hunits⟩

theorem checkFrame_check (tree : FileTree) (arguments : CheckArguments) :
    CheckFrame tree arguments (check tree arguments) := by
  rcases check_cases tree arguments with ⟨hsame, hnot⟩ | ⟨options, documents, units, log, hready, heq⟩
  · refine ⟨fun _ => hsame, fun _ => hsame, fun _ _ _ => hsame, fun _ => hsame, ?_, ?_⟩
    · intro _ options documents _ _
      rw [hsame]
      exact .refl options documents tree
    · intro _ _ options documents units _ hready
      exact absurd ⟨options, documents, units, hready⟩ hnot
  · rw [heq]
    constructor
    case configuration => exact fun hnone => absurd hready.resolved (hnone options)
    case discovery => exact fun hnil => absurd (hnil documents hready.discovered) hready.found
    case loading =>
      rintro documents' hdiscovered ⟨path, hpath, hfails⟩
      cases hdiscovered.symm.trans hready.discovered
      obtain ⟨unit, hpair⟩ := exists_mem_zip hready.loaded.length_eq hpath
      exact absurd (List.forall₂_zip hready.loaded hpair) (hfails unit)
    case unasked => exact fun hfix => finishCheck_tree_of_not_fix hfix ..
    case written =>
      intro hsource options' documents' hresolved hdiscovered
      cases hresolved.symm.trans hready.resolved
      cases hdiscovered.symm.trans hready.discovered
      cases hfix : arguments.fix with
      | false =>
        rw [finishCheck_tree_of_not_fix hfix]
        exact .refl options documents tree
      | true =>
        rcases finishCheck_cases hfix tree options documents units log with
          ⟨hsame, -⟩ | ⟨results, hlint, htree, -⟩
        · rw [hsame]
          exact .refl options documents tree
        · rw [htree]
          exact writeFixes_onlyFixed hsource _
            (lintedAt_of_mem_zip hready.loaded (lintAll_eq_ok hlint)) (.refl options documents tree)
    case complete =>
      intro hfix hsource options' documents' units' code hready' hcode path hpath names old new
        hresolve hold hdump
      obtain ⟨rfl, rfl, rfl⟩ := hready.unique hready'
      rcases finishCheck_cases hfix tree options documents units log with
        ⟨-, hnone⟩ | ⟨results, hlint, htree, hdone⟩
      · exact absurd hcode (hnone code)
      · have hlinted := lintAll_eq_ok hlint
        obtain ⟨result, hpair⟩ :=
          exists_mem_zip (hready.loaded.length_eq.trans hlinted.length_eq) hpath
        rw [htree]
        exact lookup_writeFixes hsource (lintedAt_of_mem_zip hready.loaded hlinted)
          (.refl options documents tree) (hdone code hcode) hpair hresolve hold hdump

/-- A check touches only what it reports as fixed, whatever its arguments are and whatever the tree
holds. -/
theorem check_touches_only_fixed (tree : FileTree) (given : List String) :
    (parse? ("check" :: given) = none ∧ (run tree ("check" :: given)).tree = tree) ∨
    ∃ arguments, parse? ("check" :: given) = some (.check arguments) ∧
      (arguments.fix = true → "--fix" ∈ given) ∧
      (arguments.writeSource = true → "--write-source" ∈ given) ∧
      CheckFrame tree arguments (run tree ("check" :: given)) := by
  rcases parse?_check given with hparse | ⟨arguments, hparse, hfix, hsource⟩
  · refine Or.inl ⟨hparse, ?_⟩
    rw [run, hparse]
  · refine Or.inr ⟨arguments, hparse, hfix, hsource, ?_⟩
    rw [run, hparse]
    exact checkFrame_check tree arguments

end ComponentLint.Command
