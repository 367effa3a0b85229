import ComponentLint.Lint
import ComponentLint.Proofs.Arrangement.Container
import Mathlib.Data.List.TakeWhile
/-
  The outline of a unit. Every declaration of an outline has a place (`classify_declaration`), so a
  check of a unit never fails (`lint_eq_check`), and a fix fails only if no plan is made
  (`lint_eq_fix`). The declarations of a unit are numbered from zero and laid out around its
  component (`layout_reading`), and each is determined by its statement, its container, and whether
  it ends the body (`reading_eq`).
-/

namespace ComponentLint

/-! ## Every declaration has a place -/

theorem Hook.baseName_baseName (callee : String) :
    baseName (baseName callee) = baseName callee := by
  unfold baseName
  rw [String.toList_ofList, List.reverse_reverse]
  rw [List.takeWhile_idem]

theorem Hook.section?_baseName (callee : String) :
    Hook.section? (baseName callee) = Hook.section? callee := by
  unfold section?
  rw [baseName_baseName]

theorem Statement.section?_of_calledHook {s : Statement} {hook : String}
    (h : s.calledHook? = some hook) : (Hook.section? hook).isSome = true := by
  unfold calledHook? at h
  split at h
  · exact absurd h (by simp)
  · split at h
    · next hs =>
      rw [← Option.some.inj h, Hook.section?_baseName]
      exact hs
    · exact absurd h (by simp)

/-- What a statement other than the component can declare: a kind that has a section where the
statement stands, or needs none. -/
structure Kind.Declarable (scope : Scope) (kind : Kind) : Prop where
  hook : ∀ name, kind = .hook name → (Hook.section? name).isSome = true
  function : kind = .function → scope = .component
  value : ∀ boolean, kind = .value boolean → scope = .component
  known : ∀ tag, kind ≠ .foreign tag
  plain : kind ≠ .component

theorem Kind.declarable_hook {scope : Scope} {name : String}
    (h : (Hook.section? name).isSome = true) : (Kind.hook name).Declarable scope :=
  ⟨fun _ he => Kind.hook.inj he ▸ h, nofun, nofun, nofun, nofun⟩

theorem Statement.declarable_functionKind (scope : Scope) :
    (functionKind scope).Declarable scope := by
  cases scope
  · exact ⟨nofun, nofun, nofun, nofun, nofun⟩
  · exact ⟨nofun, fun _ => rfl, nofun, nofun, nofun⟩

theorem Statement.declarable_variableKind (scope : Scope) (s : Statement) :
    (s.variableKind scope).Declarable scope := by
  unfold variableKind
  split
  · next hook h => exact Kind.declarable_hook (section?_of_calledHook h)
  · split
    · exact ⟨nofun, nofun, nofun, nofun, nofun⟩
    · exact declarable_functionKind scope
    · cases scope
      · exact ⟨nofun, nofun, nofun, nofun, nofun⟩
      · exact ⟨nofun, nofun, fun _ _ => rfl, nofun, nofun⟩

theorem Statement.declarable_classKind (scope : Scope) (s : Statement) :
    (s.classKind scope).Declarable scope := by
  unfold classKind
  split
  · exact declarable_functionKind scope
  · cases scope
    · exact ⟨nofun, nofun, nofun, nofun, nofun⟩
    · exact ⟨nofun, nofun, nofun, nofun, nofun⟩

theorem Statement.declarable_assignmentKind (setting : Setting) (scope : Scope) (s : Statement) :
    (s.assignmentKind setting).Declarable scope := by
  unfold assignmentKind
  dsimp only
  split
  · exact ⟨nofun, nofun, nofun, nofun, nofun⟩
  · exact ⟨nofun, nofun, nofun, nofun, nofun⟩

theorem Statement.declarable_declaredKind (setting : Setting) (scope : Scope) (isLast : Bool)
    (s : Statement) : (s.declaredKind setting scope isLast).Declarable scope := by
  unfold declaredKind
  split
  case h_6 => exact declarable_assignmentKind setting scope s
  case h_7 =>
    split
    · exact ⟨nofun, nofun, nofun, nofun, nofun⟩
    · exact ⟨nofun, nofun, nofun, nofun, nofun⟩
  case h_8 =>
    split
    · next hook h => exact Kind.declarable_hook (section?_of_calledHook h)
    · exact ⟨nofun, nofun, nofun, nofun, nofun⟩
  case h_9 => exact declarable_variableKind scope s
  case h_10 => exact declarable_functionKind scope
  case h_11 => exact declarable_classKind scope s
  all_goals exact ⟨nofun, nofun, nofun, nofun, nofun⟩

theorem Declaration.exists_classifyBinding {d : Declaration} (h : d.scope = .component)
    (shape : Section) : ∃ c, d.classifyBinding shape = .ok c := by
  unfold classifyBinding
  rw [h]
  dsimp only
  split
  · exact ⟨_, rfl⟩
  · exact ⟨_, rfl⟩

theorem Declaration.exists_classify {d : Declaration} (h : d.kind.Declarable d.scope) :
    ∃ c, d.classify = .ok c := by
  unfold classify
  split
  · exact ⟨_, rfl⟩
  · split
    case h_8 name hk =>
      obtain ⟨place, hp⟩ := Option.isSome_iff_exists.1 (h.hook name hk)
      rw [hp]
      exact ⟨_, rfl⟩
    case h_10 hk => exact exists_classifyBinding (h.function hk) _
    case h_11 boolean hk => exact exists_classifyBinding (h.value boolean hk) _
    case h_13 tag hk => exact absurd hk (h.known tag)
    all_goals exact ⟨_, rfl⟩

/-- The declaration with its place. -/
def Declaration.placed (d : Declaration) : Classified :=
  match d.classify with
  | .ok c => { d with placement := c.placement, evidence := c.evidence }
  | .error _ => { d with placement := .unclassified, evidence := .nothing }

theorem Declaration.toDeclaration_placed (d : Declaration) : d.placed.toDeclaration = d := by
  unfold placed
  split
  · rfl
  · rfl

theorem classifyAll_eq {decls : List Declaration} (h : ∀ d ∈ decls, ∃ c, d.classify = .ok c) :
    classifyAll decls = .ok (decls.map Declaration.placed) := by
  induction decls with
  | nil => rfl
  | cons d decls ih =>
    obtain ⟨c, hc⟩ := h d (by simp)
    have hplaced : Classified.ofDeclaration d = .ok d.placed := by
      unfold Classified.ofDeclaration Declaration.placed
      rw [hc]
      rfl
    rw [classifyAll, hplaced, ih fun e he => h e (by simp [he])]
    rfl

/-! ## The entries of an outline -/

namespace Outline

/-- The list with what a function makes of each element and its number. -/
def numbered {α β : Type} (f : Nat → α → β) (first : Nat) (l : List α) : List β :=
  (l.zipIdx first).map fun (a, index) => f index a

section

variable {α β γ : Type} (f : Nat → α → β)

theorem numbered_append (first : Nat) (l l' : List α) :
    numbered f first (l ++ l') = numbered f first l ++ numbered f (first + l.length) l' := by
  unfold numbered
  rw [List.zipIdx_append, List.map_append]

theorem numbered_cons (first : Nat) (a : α) (l : List α) :
    numbered f first (a :: l) = f first a :: numbered f (first + 1) l :=
  rfl

theorem length_numbered (first : Nat) (l : List α) : (numbered f first l).length = l.length := by
  simp [numbered]

/-- What does not depend on the number is the same for the numbered list. -/
theorem map_numbered (first : Nat) (l : List α) (g : β → γ) (h : α → γ)
    (hg : ∀ i, ∀ a ∈ l, g (f i a) = h a) : (numbered f first l).map g = l.map h := by
  induction l generalizing first with
  | nil => rfl
  | cons a l ih =>
    rw [numbered_cons, List.map_cons, List.map_cons, hg first a (by simp),
      ih (first + 1) fun i b hb => hg i b (by simp [hb])]

theorem exists_of_mem_numbered {first : Nat} {l : List α} {b : β} (h : b ∈ numbered f first l) :
    ∃ i, ∃ a ∈ l, b = f i a := by
  obtain ⟨⟨a, i⟩, ha, rfl⟩ := List.mem_map.1 h
  exact ⟨i, a, List.fst_mem_of_mem_zipIdx ha, rfl⟩

theorem map_index_numbered (first : Nat) (l : List α) (g : β → Nat) (hg : ∀ i a, g (f i a) = i) :
    (numbered f first l).map g = List.range' first l.length := by
  induction l generalizing first with
  | nil => rfl
  | cons a l ih =>
    rw [numbered_cons, List.map_cons, hg, ih, List.length_cons, List.range'_succ]

end

/-- A statement of the module that is not the component. -/
def moduleEntry (s : Statement) : Entry :=
  { statement := s, scope := .module }

def componentEntry (s : Statement) : Entry :=
  { statement := s, scope := .module, isComponent := true }

theorem flatMap_zipIdx_of_ne {α β : Type} (f : α → List β) (g : α → β) {k n : Nat} {l : List α}
    (h : k < n ∨ n + l.length ≤ k) :
    ((l.zipIdx n).flatMap fun (a, i) => if i = k then f a else [g a]) = l.map g := by
  induction l generalizing n with
  | nil => rfl
  | cons a l ih =>
    have hne : n ≠ k := by
      simp only [List.length_cons] at h
      omega
    have hrest : k < n + 1 ∨ n + 1 + l.length ≤ k := by
      simp only [List.length_cons] at h
      omega
    rw [List.zipIdx_cons, List.flatMap_cons, ih hrest]
    dsimp only
    rw [if_neg hne]
    rfl

theorem entries_eq {unit : SourceUnit} {before after : List Statement} {component : Statement}
    (h : unit.statements = before ++ component :: after) :
    entries unit before.length = before.map moduleEntry ++ componentEntry component ::
      (bodyEntries component.bodyStatements ++ after.map moduleEntry) := by
  unfold entries
  rw [h, List.zipIdx_append, List.flatMap_append, List.zipIdx_cons, List.flatMap_cons]
  have hbefore := flatMap_zipIdx_of_ne
    (fun s => componentEntry s :: bodyEntries s.bodyStatements) moduleEntry
    (k := before.length) (n := 0) (l := before) (Or.inr (by omega))
  have hafter := flatMap_zipIdx_of_ne
    (fun s => componentEntry s :: bodyEntries s.bodyStatements) moduleEntry
    (k := before.length) (n := 0 + before.length + 1) (l := after) (Or.inl (by omega))
  unfold componentEntry moduleEntry at *
  rw [hbefore, hafter]
  dsimp only
  rw [if_pos (by omega)]
  rfl

theorem map_statement_bodyEntries (body : List Statement) :
    (bodyEntries body).map (·.statement) = body := by
  fun_induction bodyEntries body with
  | case1 => rfl
  | case2 s => rfl
  | case3 s rest _ ih => rw [List.map_cons, ih]

theorem of_mem_bodyEntries {body : List Statement} {e : Entry} (h : e ∈ bodyEntries body) :
    e.scope = .component ∧ e.isComponent = false := by
  fun_induction bodyEntries body with
  | case1 => simp at h
  | case2 s => rw [List.mem_singleton.1 h]; exact ⟨rfl, rfl⟩
  | case3 s rest _ ih =>
    rcases List.mem_cons.1 h with rfl | h
    · exact ⟨rfl, rfl⟩
    · exact ih h

/-! ## The reading of a unit -/

/-- What a statement is read as in an outline. -/
def read (setting : Statement.Setting) (declared : List String) (index : Nat) (entry : Entry) :
    Classified :=
  (declaration setting declared index entry).placed

/-- What the outline knows of a component. -/
def settingOf (propsNames : List String) (component : Statement) : Statement.Setting :=
  ⟨component.name?.getD "", (component.name?.getD "" ++ "Props") :: propsNames⟩

/-- The declarations of a unit with their places, when its component stands at an index. -/
def reading (propsNames : List String) (unit : SourceUnit) (component : Nat) : List Classified :=
  (declarations propsNames unit component).map Declaration.placed

theorem reading_eq {unit : SourceUnit} {before after : List Statement} {component : Statement}
    (h : unit.statements = before ++ component :: after) (propsNames : List String) :
    reading propsNames unit before.length =
      numbered (read (settingOf propsNames component)
        ((entries unit before.length).flatMap (·.statement.boundNames))) 0
        (entries unit before.length) := by
  have hc : unit.statements[before.length]? = some component := by
    rw [h, List.getElem?_append_right (Nat.le_refl _), Nat.sub_self]
    rfl
  unfold reading declarations numbered read settingOf
  rw [hc, List.map_map]
  rfl

/-- Every declaration of an outline has a place. -/
theorem classify_declaration (setting : Statement.Setting) (declared : List String) (index : Nat)
    (entry : Entry) : ∃ c, (declaration setting declared index entry).classify = .ok c := by
  cases hc : entry.isComponent with
  | true =>
    have hkind : (declaration setting declared index entry).kind = .component := by
      show (if entry.isComponent then Kind.component else _) = _
      rw [hc]
      rfl
    unfold Declaration.classify
    rw [hkind]
    split
    · exact ⟨_, rfl⟩
    · exact ⟨_, rfl⟩
  | false =>
    refine Declaration.exists_classify ?_
    show (if entry.isComponent then Kind.component else
      entry.statement.declaredKind setting entry.scope entry.isLast).Declarable entry.scope
    rw [hc]
    exact Statement.declarable_declaredKind _ _ _ _

theorem classifyAll_declarations (propsNames : List String) (unit : SourceUnit) (component : Nat) :
    classifyAll (declarations propsNames unit component) =
      .ok (reading propsNames unit component) := by
  refine classifyAll_eq fun d hd => ?_
  obtain ⟨⟨entry, index⟩, -, rfl⟩ := List.mem_map.1 hd
  exact classify_declaration _ _ _ _

section

variable (setting : Statement.Setting) (declared : List String) (index : Nat) (entry : Entry)

theorem toDeclaration_read :
    (read setting declared index entry).toDeclaration = declaration setting declared index entry :=
  Declaration.toDeclaration_placed _

theorem read_index : (read setting declared index entry).index = index := by
  rw [toDeclaration_read]
  rfl

theorem read_scope : (read setting declared index entry).scope = entry.scope := by
  rw [toDeclaration_read]
  rfl

theorem read_statement : (read setting declared index entry).statement = entry.statement := by
  rw [toDeclaration_read]
  rfl

theorem read_kind : (read setting declared index entry).kind =
    if entry.isComponent then .component
    else entry.statement.declaredKind setting entry.scope entry.isLast := by
  rw [toDeclaration_read]
  rfl

theorem read_isComponent :
    (read setting declared index entry).isComponent = entry.isComponent := by
  unfold Declaration.isComponent
  rw [read_kind]
  cases entry.isComponent with
  | true => rfl
  | false =>
    rw [if_neg Bool.false_ne_true]
    split
    · next hk => exact absurd hk (Statement.declarable_declaredKind _ _ _ _).plain
    · rfl

/-- The profile does not depend on the number. -/
theorem read_profile : (read setting declared index entry).profile =
    (read setting declared 0 entry).profile := by
  have hclassify : (declaration setting declared index entry).classify =
      (declaration setting declared 0 entry).classify := rfl
  unfold read Declaration.placed
  rw [hclassify]
  split
  · rfl
  · rfl

end

/-- The parts of a unit around its component. -/
structure Parts (unit : SourceUnit) (before : List Statement) (component : Statement)
    (after : List Statement) : Prop where
  eq : unit.statements = before ++ component :: after
  isComponent : component.isComponent = true
  first : ∀ s ∈ before, s.isComponent = false

theorem exists_parts {unit : SourceUnit} {k : Nat} (h : unit.componentIndex? = some k) :
    ∃ before component after, before.length = k ∧ Parts unit before component after := by
  obtain ⟨hlt, hc, hfirst⟩ := List.findIdx?_eq_some_iff_getElem.1 h
  refine ⟨unit.statements.take k, unit.statements[k], unit.statements.drop (k + 1),
    by simp; omega, ?_, hc, fun s hs => ?_⟩
  · rw [List.cons_getElem_drop_succ, List.take_append_drop]
  · obtain ⟨i, hi, rfl⟩ := List.mem_take_iff_getElem.1 hs
    simpa using hfirst i (by omega)

theorem Parts.componentIndex? {unit : SourceUnit} {before after : List Statement}
    {component : Statement} (h : Parts unit before component after) :
    unit.componentIndex? = some before.length := by
  unfold SourceUnit.componentIndex?
  rw [h.eq, List.findIdx?_append, List.findIdx?_eq_none_iff.2 h.first, Option.none_or,
    List.findIdx?_cons, h.isComponent]
  simp

variable {unit : SourceUnit} {before after : List Statement} {component : Statement}

/-- The declarations of a unit, around those of its component. -/
theorem layout_reading (h : Parts unit before component after) (propsNames : List String) :
    ∃ ds₁ d body ds₂, Layout (reading propsNames unit before.length) ds₁ d body ds₂ ∧
      ds₁.map (·.statement) = before ∧ d.statement = component ∧
      body.map (·.statement) = component.bodyStatements ∧ ds₂.map (·.statement) = after := by
  rw [reading_eq h.eq, entries_eq h.eq]
  generalize hs : settingOf propsNames component = setting
  generalize (before.map moduleEntry ++ componentEntry component ::
    (bodyEntries component.bodyStatements ++ after.map moduleEntry)).flatMap
      (·.statement.boundNames) = declared
  have hstatement : ∀ (first : Nat) (es : List Entry),
      (numbered (read setting declared) first es).map (·.statement) = es.map (·.statement) :=
    fun first es => map_numbered _ _ _ _ _ fun i e _ => read_statement setting declared i e
  have hmodule : ∀ (first : Nat) (ss : List Statement),
      ∀ d ∈ numbered (read setting declared) first (ss.map moduleEntry),
        d.scope = .module ∧ d.isComponent = false := by
    intro first ss d hd
    obtain ⟨i, e, he, rfl⟩ := exists_of_mem_numbered _ hd
    obtain ⟨s, -, rfl⟩ := List.mem_map.1 he
    rw [read_scope, read_isComponent]
    exact ⟨rfl, rfl⟩
  refine ⟨numbered (read setting declared) 0 (before.map moduleEntry),
    read setting declared (0 + (before.map moduleEntry).length) (componentEntry component),
    numbered (read setting declared) (0 + (before.map moduleEntry).length + 1)
      (bodyEntries component.bodyStatements),
    numbered (read setting declared) (0 + (before.map moduleEntry).length + 1 +
      (bodyEntries component.bodyStatements).length) (after.map moduleEntry),
    ⟨?_, read_scope _ _ _ _, read_isComponent _ _ _ _, ?_, ?_⟩, ?_, read_statement _ _ _ _, ?_, ?_⟩
  · rw [numbered_append, numbered_cons, numbered_append]
  · intro d hd
    rcases List.mem_append.1 hd with hd | hd
    · exact hmodule _ _ d hd
    · exact hmodule _ _ d hd
  · intro d hd
    obtain ⟨i, e, he, rfl⟩ := exists_of_mem_numbered _ hd
    rw [read_scope, read_isComponent]
    exact of_mem_bodyEntries he
  · rw [hstatement, List.map_map]
    exact List.map_id _
  · rw [hstatement, map_statement_bodyEntries]
  · rw [hstatement, List.map_map]
    exact List.map_id _

section

variable {k : Nat} (h : unit.componentIndex? = some k) (propsNames : List String)

include h

theorem exists_layout_reading :
    ∃ ds₁ d body ds₂, Layout (reading propsNames unit k) ds₁ d body ds₂ := by
  obtain ⟨before, component, after, rfl, hp⟩ := exists_parts h
  obtain ⟨ds₁, d, body, ds₂, hl, -⟩ := layout_reading hp propsNames
  exact ⟨ds₁, d, body, ds₂, hl⟩

theorem map_index_reading : (reading propsNames unit k).map (·.index) =
    List.range (reading propsNames unit k).length := by
  obtain ⟨before, component, after, rfl, hp⟩ := exists_parts h
  rw [reading_eq hp.eq, length_numbered, List.range_eq_range']
  exact map_index_numbered _ _ _ _ fun i e => read_index _ _ i e

theorem numbered_reading : Numbered (reading propsNames unit k) := by
  unfold Numbered
  rw [map_index_reading h]
  exact List.nodup_range

theorem pairwise_index_reading :
    (reading propsNames unit k).Pairwise fun d e => d.index ≤ e.index := by
  rw [← List.pairwise_map (R := (· ≤ ·)), map_index_reading h]
  exact List.pairwise_le_range

end

end Outline

theorem lint_eq_skipped {unit : SourceUnit} (h : unit.componentIndex? = none) (options : Options)
    (fix : Bool) : lint options fix unit = .ok (skippedResult unit) := by
  unfold lint SourceUnit.outline?
  rw [h]
  rfl

/-- What becomes of a unit with a component in a fix. -/
def Outline.plan? (options : Options) (unit : SourceUnit) (k : Nat) : Option Fix :=
  Fix.plan? unit (reading options.propsNames unit k)
    (validate options (reading options.propsNames unit k)).arranged

/-- What becomes of the unit if the fix does not fail. -/
def Outline.fixOf (options : Options) (unit : SourceUnit) (k : Nat) : Fix :=
  (plan? options unit k).getD (.unchanged unit)

section

variable {unit : SourceUnit} {k : Nat} (h : unit.componentIndex? = some k) (options : Options)

include h

/-- A check of a unit with a component never fails: every declaration has a place. -/
theorem lint_eq_check : lint options false unit =
    .ok (checkedResult options unit (Outline.reading options.propsNames unit k) none) := by
  unfold lint SourceUnit.outline?
  rw [h, Option.map_some]
  dsimp only
  rw [Outline.classifyAll_declarations]
  rfl

/-- A fix fails exactly where the declarations cannot be put in order. -/
theorem lint_eq_fix : lint options true unit =
    match Outline.plan? options unit k with
    | none => .error .unencodable
    | some fix =>
      .ok (checkedResult options unit (Outline.reading options.propsNames unit k) (some fix)) := by
  unfold lint SourceUnit.outline?
  rw [h, Option.map_some]
  dsimp only
  rw [Outline.classifyAll_declarations]
  rfl

variable {options}

theorem lint_eq_of_plan? {fix : Fix} (hfix : Outline.plan? options unit k = some fix) :
    lint options true unit =
      .ok (checkedResult options unit (Outline.reading options.propsNames unit k) (some fix)) := by
  rw [lint_eq_fix h, hfix]

theorem fixUnit_eq_of_plan? {fix : Fix} (hfix : Outline.plan? options unit k = some fix) :
    fixUnit options unit = .ok fix.unit := by
  rw [fixUnit, lint_eq_of_plan? h hfix]
  rfl

end

end ComponentLint
