import ComponentLint.Proofs.Fix.LinePosition
import ComponentLint.Proofs.Order
import ComponentLint.Proofs.Outline
/-
  What a fix does to a unit. The declarations of the unit in order give a composition of its
  statements, and the fix leaves the unit alone, puts its statements in the order of the
  composition, or splices the source in that order (`planned_of_plan?`). In each case every
  statement stays in its container and keeps all but its offsets. The fix fails exactly if there is
  something to move and the source has no bytes (`Blocked`).
-/

namespace ComponentLint

/-- The declarations of a unit with their places. -/
def SourceUnit.Declares (unit : SourceUnit) (options : Options) (ds : List Classified) : Prop :=
  ∃ declarations, unit.outline? options.propsNames = some declarations ∧
    classifyAll declarations = .ok ds

theorem declares_reading {unit : SourceUnit} {k : Nat} (h : unit.componentIndex? = some k)
    (options : Options) : unit.Declares options (Outline.reading options.propsNames unit k) := by
  refine ⟨_, ?_, Outline.classifyAll_declarations options.propsNames unit k⟩
  rw [SourceUnit.outline?, h, Option.map_some]

theorem SourceUnit.declares_iff_eq {unit : SourceUnit} {k : Nat}
    (h : unit.componentIndex? = some k) {options : Options} {ds : List Classified} :
    unit.Declares options ds ↔ ds = Outline.reading options.propsNames unit k := by
  constructor
  · intro hds
    obtain ⟨declarations, hd, hds⟩ := hds
    rw [outline?, h, Option.map_some] at hd
    rw [← Option.some.inj hd, Outline.classifyAll_declarations] at hds
    exact (Except.ok.inj hds).symm
  · intro he
    rw [he]
    exact declares_reading h options

theorem SourceUnit.not_declares {unit : SourceUnit} (h : unit.componentIndex? = none)
    (options : Options) (ds : List Classified) : ¬ unit.Declares options ds := by
  intro hds
  obtain ⟨declarations, hd, -⟩ := hds
  rw [outline?, h] at hd
  exact absurd hd (by simp)

/-- The declarations of a unit are a reading of it. -/
theorem SourceUnit.Declares.exists_reading {unit : SourceUnit} {options : Options}
    {ds : List Classified} (h : unit.Declares options ds) :
    ∃ k, unit.componentIndex? = some k ∧ ds = Outline.reading options.propsNames unit k := by
  cases hk : unit.componentIndex? with
  | none => exact absurd h (unit.not_declares hk options ds)
  | some k => exact ⟨k, rfl, (declares_iff_eq hk).1 h⟩

/-- A fix has something to move in the unit, and the source has no bytes. -/
structure Blocked (options : Options) (fix : Bool) (unit : SourceUnit) : Prop where
  fix : fix = true
  source : ∃ text, unit.source = some (.unpaired text)
  moves : ∃ ds, unit.Declares options ds ∧ (validate options ds).arranged ≠ ds

theorem not_blocked_of_text {unit : SourceUnit} {text : String}
    (h : unit.source = some (.text text)) (options : Options) (fix : Bool) :
    ¬ Blocked options fix unit := by
  intro hb
  obtain ⟨text', h'⟩ := hb.source
  rw [h] at h'
  simp at h'

theorem not_blocked_of_none {unit : SourceUnit} (h : unit.source = none) (options : Options)
    (fix : Bool) : ¬ Blocked options fix unit := by
  intro hb
  obtain ⟨text, h'⟩ := hb.source
  rw [h] at h'
  simp at h'

section

variable (options : Options) (unit : SourceUnit) (ds : List Classified) (fix : Fix)

@[simp] theorem checkedResult_fixed :
    (checkedResult options unit ds (some fix)).fixed = fix.changed :=
  rfl

@[simp] theorem checkedResult_fixedUnit :
    (checkedResult options unit ds (some fix)).fixedUnit = some fix.unit :=
  rfl

@[simp] theorem checkedResult_fixedSource :
    (checkedResult options unit ds (some fix)).fixedSource = fix.source :=
  rfl

@[simp] theorem checkedResult_diagnostics :
    (checkedResult options unit ds (some fix)).diagnostics = fix.diagnostics unit :=
  rfl

@[simp] theorem checkedResult_violations (fix : Option Fix) :
    (checkedResult options unit ds fix).violations = (validate options ds).violations :=
  rfl

end

theorem Statement.movedTo_refl (s : Statement) : s.MovedTo s := by
  cases s
  rfl

theorem Composition.movedTo_refl (a : Composition) : a.MovedTo a :=
  have hrefl : ∀ ss : List Statement, List.Forall₂ Statement.MovedTo ss ss := fun _ =>
    List.forall₂_same.2 fun s _ => s.movedTo_refl
  ⟨hrefl _, a.component.movedTo_refl, hrefl _, hrefl _⟩

theorem Statement.isSome_body_of_isComponent {s : Statement} (h : s.isComponent = true) :
    s.body.isSome = true := by
  unfold isComponent at h
  rw [Bool.and_eq_true, Bool.and_eq_true] at h
  exact h.1.2

/-- Declarations stand in the order of the composition. -/
structure Composition.Follows (a : Composition) (ds : List Classified) : Prop where
  module : (inScope .module ds).map (·.statement) = a.before ++ a.component :: a.after
  body : (inScope .component ds).map (·.statement) = a.body

theorem Composition.follows_ofClassified {ds before body after : List Classified} {d : Classified}
    (hl : Layout ds before d body after) : (ofClassified before d body after).Follows ds := by
  refine ⟨?_, by rw [hl.inScope_component]; rfl⟩
  rw [hl.inScope_module, List.map_append, List.map_cons]
  rfl

/-- Declarations in another order have the statements of the unit in another order. -/
theorem Composition.reorders_ofClassified {unit : SourceUnit}
    {ds before body after ds' before' body' after' : List Classified} {d : Classified}
    (hl : Layout ds before d body after) (hl' : Layout ds' before' d body' after')
    (hperm : ds'.Perm ds) (hm : (before ++ d :: after).map (·.statement) = unit.statements)
    (hb : body.map (·.statement) = d.statement.bodyStatements) :
    (ofClassified before' d body' after').Reorders unit := by
  have hscope : ∀ scope, ((inScope scope ds').map (·.statement)).Perm
      ((inScope scope ds).map (·.statement)) := fun scope => (hperm.filter _).map _
  constructor
  · have hmodule := hscope .module
    rw [hl'.inScope_module, hl.inScope_module, hm, List.map_append, List.map_cons] at hmodule
    exact hmodule
  · have hinner := hscope .component
    rw [hl'.inScope_component, hl.inScope_component, hb] at hinner
    exact hinner

theorem Numbered.eq_of_map_index {ds ds' : List Classified} (h : Numbered ds) (hs : ds' ⊆ ds)
    (hi : ds'.map (·.index) = ds.map (·.index)) : ds' = ds := by
  have hlen : ds'.length = ds.length := by simpa using congrArg List.length hi
  refine List.ext_getElem hlen fun i h₁ h₂ => ?_
  refine h.eq_of_index (hs (List.getElem_mem h₁)) (List.getElem_mem h₂) ?_
  have hget : (ds'.map (·.index))[i]? = (ds.map (·.index))[i]? := by rw [hi]
  simpa [h₁, h₂] using hget

theorem Statement.with_bodyStatements {s : Statement} (h : s.body.isSome = true) :
    { s with body := some s.bodyStatements } = s := by
  obtain ⟨body, hb⟩ := Option.isSome_iff_exists.1 h
  cases s
  cases hb
  rfl

namespace Fix

/-- What can become of a unit whose statements are to stand as in a composition. -/
inductive Planned (unit : SourceUnit) (a : Composition) : Fix → Prop where
  | unchanged (h : unit.statements = a.statements) : Planned unit a (.unchanged unit)
  | reordered (h : unit.source = none) :
    Planned unit a (.reordered { unit with statements := a.statements })
  | sourceKept (source : String) (failure : SpliceFailure)
    (hsource : unit.source = some (.text source)) :
    Planned unit a (.sourceKept { unit with statements := a.statements } failure)
  | spliced (source text : String) (b : Composition) (hsource : unit.source = some (.text source))
    (htiled : Tiled (Bytes.ofText source) unit a.component)
    (htext : Bytes.ofText text = moduleText (Bytes.ofText source) unit a) (hmoved : a.MovedTo b)
    (hstands : StandsIn (Bytes.ofText source) (Bytes.ofText text) a b)
    (hlines : LinesFoundIn (Bytes.ofText text) a b) :
    Planned unit a (.spliced { unit with statements := b.statements, source := some (.text text) })

variable {unit : SourceUnit} {ds before body after : List Classified} {d : Classified}

/-- Whatever becomes of the unit, its statements are those of the composition, moved. -/
theorem Planned.exists_movedTo {a : Composition} {fix : Fix} (h : Planned unit a fix) :
    ∃ b, a.MovedTo b ∧ fix.unit.statements = b.statements ∧ fix.unit.name = unit.name := by
  cases h with
  | unchanged h => exact ⟨a, a.movedTo_refl, h, rfl⟩
  | reordered => exact ⟨a, a.movedTo_refl, rfl, rfl⟩
  | sourceKept => exact ⟨a, a.movedTo_refl, rfl, rfl⟩
  | spliced source text b _ _ _ hmoved => exact ⟨b, hmoved, rfl, rfl⟩

/-- A fixed unit can be fixed again. -/
theorem Planned.not_blocked {a : Composition} {fix : Fix} (h : Planned unit a fix)
    {options : Options} (hb : ¬ Blocked options true unit) : ¬ Blocked options true fix.unit := by
  cases h with
  | unchanged => exact hb
  | reordered hsource =>
    refine not_blocked_of_none ?_ options true
    exact hsource
  | sourceKept source _ hsource =>
    refine @not_blocked_of_text _ source ?_ options true
    exact hsource
  | spliced => exact not_blocked_of_text rfl options true

theorem rebuilt_eq (hl : Layout ds before d body after) :
    rebuilt (before ++ d :: after) (body.map (·.statement)) =
      (Composition.ofClassified before d body after).statements := by
  unfold rebuilt
  rw [map_if_unique _ _ (fun e he => (hl.outside e he).2) hl.isComponent]
  rfl

theorem planned_splice (hl : Layout ds before d body after) {a : Composition}
    (ha : a = .ofClassified before d body after) (hr : a.Reorders unit) {source : String}
    (hs : unit.source = some (.text source)) :
    Planned unit a (match splice unit (.ofText source) d.statement (before ++ d :: after) body with
      | .ok unit => .spliced unit
      | .error failure => .sourceKept { unit with statements := a.statements } failure) := by
  obtain ⟨offsets, offset, offsets', ho⟩ := exists_offsets (Bytes.ofText source) hr
  rw [splice_eq hl ha ho]
  split
  · next h =>
    split at h
    · exact absurd h (by simp)
    · next htile =>
      split at h
      · exact absurd h (by simp)
      · next text htext =>
        have hmem : a.component ∈ unit.statements := hr.module.subset (by simp)
        simp only [Bool.not_eq_true', Bool.not_eq_false, Bool.and_eq_true] at htile
        have htiled : Tiled (Bytes.ofText source) unit a.component := ⟨hmem, htile.1, htile.2⟩
        have hbytes := Bytes.ofText_of_toText? htext
        rw [← Except.ok.inj h]
        refine .spliced source text _ hs htiled hbytes (movedTo_placedAt hr ho _) ?_ ?_
        · rw [hbytes]
          exact standsIn_placedAt htiled hr ho _
        · rw [hbytes]
          exact linesFoundIn_placedAt hr ho _
  · exact .sourceKept source _ hs

section

variable {ds' before' body' after' : List Classified}

/-- A fix leaves a unit alone exactly when its declarations stay as they are. -/
theorem plan?_unchanged_or (hn : Numbered ds) (hperm : ds'.Perm ds) :
    (ds' = ds ∧ plan? unit ds ds' = some (.unchanged unit)) ∨
      (ds' ≠ ds ∧ ∀ fix, plan? unit ds ds' = some fix → fix.changed = true) := by
  unfold plan?
  split
  · next h => exact Or.inl ⟨hn.eq_of_map_index hperm.subset h, rfl⟩
  · next h =>
    refine Or.inr ⟨fun he => absurd (by rw [he]) h, fun fix hfix => ?_⟩
    dsimp only at hfix
    split at hfix
    · obtain ⟨bytes, -, rfl⟩ := Option.map_eq_some_iff.1 hfix
      split
      · rfl
      · rfl
    · rw [← Option.some.inj hfix]
      rfl

/-- A fix fails exactly if there is something to move and the source has no bytes. -/
theorem plan?_eq_none_iff (hl : Layout ds before d body after) (hn : Numbered ds)
    (hperm : ds'.Perm ds) :
    plan? unit ds ds' = none ↔ ds' ≠ ds ∧ ∃ text, unit.source = some (.unpaired text) := by
  unfold plan?
  split
  · next h => exact iff_of_false (by simp) fun hx => hx.1 (hn.eq_of_map_index hperm.subset h)
  · next h =>
    have hne : ds' ≠ ds := fun he => h (by rw [he])
    dsimp only
    rw [hl.find?_isComponent, and_iff_right hne]
    cases unit.source with
    | none => simp
    | some source =>
      cases source with
      | text value => simp [Bytes.ofSource?]
      | unpaired value => simp [Bytes.ofSource?]

/-- What a fix does to a unit. -/
theorem planned_of_plan? (hl : Layout ds before d body after)
    (hl' : Layout ds' before' d body' after') (hn : Numbered ds) (hperm : ds'.Perm ds)
    (hm : (before ++ d :: after).map (·.statement) = unit.statements)
    (hb : body.map (·.statement) = d.statement.bodyStatements)
    (hbody : d.statement.body.isSome = true) {fix : Fix} (hfix : plan? unit ds ds' = some fix) :
    Planned unit (.ofClassified before' d body' after') fix := by
  have hreorders := Composition.reorders_ofClassified hl hl' hperm hm hb
  unfold plan? at hfix
  split at hfix
  · next hi =>
    rw [← Option.some.inj hfix]
    have he := hn.eq_of_map_index hperm.subset hi
    have hmodule : before' ++ d :: after' = before ++ d :: after := by
      rw [← hl'.inScope_module, ← hl.inScope_module, he]
    have hinner : body' = body := by
      rw [← hl'.inScope_component, ← hl.inScope_component, he]
    refine .unchanged ?_
    rw [← hm, ← hmodule, Composition.ofClassified, Composition.statements, hinner]
    dsimp only
    rw [hb, Statement.with_bodyStatements hbody, List.map_append, List.map_cons]
  · dsimp only at hfix
    rw [hl.find?_isComponent, hl'.inScope_module, hl'.inScope_component, rebuilt_eq hl'] at hfix
    split at hfix
    · next component source hc hs =>
      obtain ⟨bytes, hbytes, rfl⟩ := Option.map_eq_some_iff.1 hfix
      cases source with
      | text value =>
        rw [← Option.some.inj hbytes, ← Option.some.inj hc]
        exact planned_splice hl' rfl hreorders hs
      | unpaired value => exact absurd hbytes (by simp [Bytes.ofSource?])
    · next hno =>
      rw [← Option.some.inj hfix]
      refine .reordered ?_
      cases hs : unit.source with
      | none => rfl
      | some source => exact absurd hs (hno d source rfl)

end

end Fix

namespace Outline

variable {unit : SourceUnit} {k : Nat}

theorem arranged_perm (h : unit.componentIndex? = some k) (options : Options) :
    (validate options (reading options.propsNames unit k)).arranged.Perm
      (reading options.propsNames unit k) := by
  obtain ⟨before, d, body, after, hl⟩ := exists_layout_reading h options.propsNames
  exact arrange_perm hl (numbered_reading h options.propsNames) options.order _

theorem map_index_arranged_perm (h : unit.componentIndex? = some k) (options : Options) :
    ((validate options (reading options.propsNames unit k)).arranged.map (·.index)).Perm
      (List.range (reading options.propsNames unit k).length) := by
  have hperm := (arranged_perm h options).map (·.index)
  rw [map_index_reading h] at hperm
  exact hperm

theorem plan?_eq_none_iff (h : unit.componentIndex? = some k) (options : Options) :
    plan? options unit k = none ↔ Blocked options true unit := by
  obtain ⟨before, d, body, after, hl⟩ := exists_layout_reading h options.propsNames
  have hn := numbered_reading h options.propsNames
  rw [plan?, Fix.plan?_eq_none_iff hl hn (arranged_perm h options)]
  constructor
  · exact fun hx => ⟨rfl, hx.2, _, declares_reading h options, hx.1⟩
  · intro hb
    obtain ⟨ds, hds, hmoves⟩ := hb.moves
    rw [SourceUnit.declares_iff_eq h] at hds
    exact ⟨hds ▸ hmoves, hb.source⟩

/-- The declarations of a unit in order are laid out around its component as well. -/
theorem exists_layout_arranged (h : unit.componentIndex? = some k) (options : Options) :
    ∃ before d body after, Layout (validate options (reading options.propsNames unit k)).arranged
        before d body after ∧
      (Composition.ofClassified before d body after).Reorders unit ∧
      unit.statements[k]? = some d.statement ∧
      ∀ fix, plan? options unit k = some fix →
        Fix.Planned unit (.ofClassified before d body after) fix := by
  have hn := numbered_reading h options.propsNames
  obtain ⟨before, component, after, rfl, hp⟩ := exists_parts h
  obtain ⟨ds₁, d, dsb, ds₂, hl, hbefore, hd, hbody, hafter⟩ :=
    layout_reading hp options.propsNames
  obtain ⟨ds₁', ds₂', -, hl'⟩ := hl.arrange hn options.order
    (validate options (reading options.propsNames unit before.length)).resorted
  have hperm := arranged_perm h options
  have hmodule : (ds₁ ++ d :: ds₂).map (·.statement) = unit.statements := by
    rw [List.map_append, List.map_cons, hbefore, hd, hafter, hp.eq]
  have hinner : dsb.map (·.statement) = d.statement.bodyStatements := hd ▸ hbody
  refine ⟨ds₁', d, _, ds₂', hl',
    Composition.reorders_ofClassified hl hl' hperm hmodule hinner, ?_,
    fun fix hfix => Fix.planned_of_plan? hl hl' hn hperm hmodule hinner ?_ hfix⟩
  · rw [hp.eq, hd, List.getElem?_append_right (Nat.le_refl _), Nat.sub_self]
    rfl
  · rw [hd]
    exact Statement.isSome_body_of_isComponent hp.isComponent

end Outline

/-- A blocked unit is not linted. -/
theorem lint_of_blocked {options : Options} {fix : Bool} {unit : SourceUnit}
    (h : Blocked options fix unit) : lint options fix unit = .error .unencodable := by
  obtain ⟨ds, hds, -⟩ := h.moves
  obtain ⟨k, hk, -⟩ := hds.exists_reading
  obtain rfl := h.fix
  rw [lint_eq_fix hk, (Outline.plan?_eq_none_iff hk options).2 h]

/-- Linting the unit gives a result with a property, unless the unit is blocked. Then it fails. -/
structure LintsTo (options : Options) (fix : Bool) (unit : SourceUnit) (P : LintResult → Prop) :
    Prop where
  fails : Blocked options fix unit → lint options fix unit = .error .unencodable
  gives : ¬ Blocked options fix unit → ∃ result, lint options fix unit = .ok result ∧ P result

section

variable {options : Options} {unit : SourceUnit} {P : LintResult → Prop}

theorem lintsTo_of_skipped (h : unit.componentIndex? = none) {fix : Bool}
    (hP : P (skippedResult unit)) : LintsTo options fix unit P where
  fails := lint_of_blocked
  gives _ := ⟨_, lint_eq_skipped h options fix, hP⟩

variable {k : Nat} (h : unit.componentIndex? = some k)

include h

/-- A unit that is not blocked is put in order. -/
theorem exists_plan? (hb : ¬ Blocked options true unit) :
    ∃ fix, Outline.plan? options unit k = some fix :=
  Option.ne_none_iff_exists'.1 (mt (Outline.plan?_eq_none_iff h options).1 hb)

theorem plan?_eq_fixOf (hb : ¬ Blocked options true unit) :
    Outline.plan? options unit k = some (Outline.fixOf options unit k) := by
  obtain ⟨fix, hfix⟩ := exists_plan? h hb
  rw [Outline.fixOf, hfix, Option.getD_some]

theorem lintsTo_of_plan? (hP : ∀ fix, Outline.plan? options unit k = some fix →
    P (checkedResult options unit (Outline.reading options.propsNames unit k) (some fix))) :
    LintsTo options true unit P where
  fails := lint_of_blocked
  gives hb := by
    obtain ⟨fix, hfix⟩ := exists_plan? h hb
    exact ⟨_, lint_eq_of_plan? h hfix, hP fix hfix⟩

theorem lintsTo_of_checked {fix : Bool} (hP : ∀ made,
      P (checkedResult options unit (Outline.reading options.propsNames unit k) made)) :
    LintsTo options fix unit P := by
  cases fix with
  | true => exact lintsTo_of_plan? h fun made _ => hP (some made)
  | false => exact ⟨lint_of_blocked, fun _ => ⟨_, lint_eq_check h options, hP none⟩⟩

end

/-- The declarations of a unit with a component are put in another order, and with them the
statements of the module and those of the component's body. In the fixed unit every statement keeps
all but its offsets; the component has its body in order. -/
theorem fix_permutes_statements (options : Options) (unit : SourceUnit) (k : Nat)
    (h : unit.componentIndex? = some k) :
    ∃ (ds : List Classified) (order : Composition), unit.Declares options ds ∧
      ((validate options ds).arranged.map (·.index)).Perm (List.range ds.length) ∧
      order.Follows (validate options ds).arranged ∧
      unit.statements[k]? = some order.component ∧
      (order.before ++ order.component :: order.after).Perm unit.statements ∧
      order.body.Perm order.component.bodyStatements ∧
      LintsTo options true unit fun result =>
        ∃ (v : SourceUnit) (moved : Composition), result.fixedUnit = some v ∧
          order.MovedTo moved ∧ v.statements = moved.statements ∧ v.name = unit.name := by
  obtain ⟨before, d, body, after, hl, hreorders, hd, hplanned⟩ :=
    Outline.exists_layout_arranged h options
  refine ⟨_, .ofClassified before d body after, declares_reading h options,
    Outline.map_index_arranged_perm h options, Composition.follows_ofClassified hl, hd,
    hreorders.module, hreorders.body, lintsTo_of_plan? h fun fix hfix => ?_⟩
  obtain ⟨moved, hmoved, hstatements, hname⟩ := (hplanned fix hfix).exists_movedTo
  exact ⟨_, moved, rfl, hmoved, hstatements, hname⟩

/-- A component with a state behind a function, and an import behind the component. -/
def SourceUnit.lateImport : SourceUnit where
  name := "Late"
  source := some "function A(){const f=()=>0;const[s]=useState();}import r;"
  statements :=
    [{ kind := .functionStmt, span := { start := 0, stop := 48, line := 1 }, names := ["A"]
       body := some
        [{ kind := .variableStmt, span := { start := 13, stop := 27, line := 1 }, names := ["f"]
           value := some .function },
         { kind := .variableStmt, span := { start := 27, stop := 47, line := 1 }, names := ["s"]
           callee := some "useState" }] },
     { kind := .importStmt, span := { start := 48, stop := 57, line := 1 }
       moduleName := some "r" }]

theorem fix_permutes_lateImport : SourceUnit.lateImport.componentIndex? = some 0 ∧
    ∃ (ds : List Classified) (result : LintResult) (v : SourceUnit) (order moved : Composition),
      SourceUnit.lateImport.Declares .standard ds ∧
      lint .standard true .lateImport = .ok result ∧ result.fixedUnit = some v ∧
      ((validate .standard ds).arranged.map (·.index)).Perm (List.range ds.length) ∧
      order.Follows (validate .standard ds).arranged ∧
      SourceUnit.lateImport.statements[0]? = some order.component ∧
      (order.before ++ order.component :: order.after).Perm SourceUnit.lateImport.statements ∧
      order.body.Perm order.component.bodyStatements ∧
      order.MovedTo moved ∧ v.statements = moved.statements ∧
      v.name = SourceUnit.lateImport.name := by
  have hc : SourceUnit.lateImport.componentIndex? = some 0 := by decide
  obtain ⟨ds, order, hds, hperm, hfollows, hcomponent, hmodule, hbody, hlints⟩ :=
    fix_permutes_statements .standard .lateImport 0 hc
  obtain ⟨result, hresult, v, moved, hv, hmoved⟩ :=
    hlints.gives (not_blocked_of_text rfl .standard true)
  exact ⟨hc, ds, result, v, order, moved, hds, hresult, hv, hperm, hfollows, hcomponent, hmodule,
    hbody, hmoved⟩

/-- An import behind a component, in a source that ends with a surrogate without its partner. -/
def SourceUnit.unpairedSource : SourceUnit where
  name := "a"
  source := some <| .unpaired
    { points := "function A(){}import r;".toList.map .char ++ [.surrogate ⟨0, by decide⟩]
      surrogates := rfl
      unpaired := rfl }
  statements :=
    [{ kind := .functionStmt, span := { start := 0, stop := 14 }, names := ["A"], body := some [] },
     { kind := .importStmt, span := { start := 14, stop := 23 }, moduleName := some "r" }]

theorem blocked_unpairedSource : Blocked .standard true .unpairedSource := by
  have hc : SourceUnit.unpairedSource.componentIndex? = some 0 := by decide
  refine (Outline.plan?_eq_none_iff hc .standard).1 ?_
  rw [← Option.isNone_iff_eq_none]
  decide +kernel

end ComponentLint
