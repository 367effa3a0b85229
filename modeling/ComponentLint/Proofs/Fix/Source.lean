import ComponentLint.Proofs.Fix.Plan
/-
  The source of a fixed unit. If a fix rewrites the source (`exists_spliced`), the new source has
  the gaps of the old one, with the texts of the slots between them in the order of the fix
  (`SlotsPermuted`), and the statements of the fixed unit stand at these texts, on the lines of the
  new source.
-/

namespace ComponentLint

namespace Fix

/-- The order into which a fix puts a unit: that of its arranged declarations, around the
component. -/
structure Target (options : Options) (unit : SourceUnit) (order : Composition) : Prop where
  component : ∃ k, unit.componentIndex? = some k ∧ unit.statements[k]? = some order.component
  follows : ∃ ds, unit.Declares options ds ∧ order.Follows (validate options ds).arranged
  reorders : order.Reorders unit

/-- The new bytes are the old ones with the texts of their slots in another order. What stands
between the slots of the module stays where it is, and inside the component so does what stands
between the slots of its body. -/
structure SlotsPermuted (unit : SourceUnit) (order : Composition) (old new : Bytes) : Prop where
  old_eq : old = interleave (gaps old 0 old.length unit.statements)
    (unit.statements.map (·.slotText old))
  component_eq : order.component.slotText old =
    interleave (gaps old order.component.slotStart order.component.span.stop
      order.component.bodyStatements) (order.component.bodyStatements.map (·.slotText old))
  new_eq : new = interleave (gaps old 0 old.length unit.statements)
    (order.before.map (·.slotText old) ++
      interleave (gaps old order.component.slotStart order.component.span.stop
        order.component.bodyStatements) (order.body.map (·.slotText old)) ::
      order.after.map (·.slotText old))
  perm : new.Perm old
  length_eq : new.length = old.length

theorem Tiled.slotsPermuted {unit : SourceUnit} {order : Composition} {source : Bytes}
    (h : Tiled source unit order.component) (ho : order.Reorders unit) :
    SlotsPermuted unit order source (moduleText source unit order) where
  old_eq := h.moduleGaps_eq.symm
  component_eq := h.innerGaps_eq.symm
  new_eq := rfl
  perm := h.moduleText_perm ho
  length_eq := (h.moduleText_perm ho).length_eq

end Fix

open ComponentLint.Fix

/-- A fix that changes a unit and does not keep its source splices it. -/
theorem exists_planned_spliced {options : Options} {unit : SourceUnit} {result : LintResult}
    (hs : unit.source ≠ none) (hr : lint options true unit = .ok result) (hf : result.fixed = true)
    (hk : ∀ d ∈ result.diagnostics, d.kind ≠ .sourceKept) :
    ∃ (order : Composition) (v : SourceUnit), Target options unit order ∧
      Planned unit order (.spliced v) ∧ result.fixedUnit = some v ∧
      result.fixedSource = v.source := by
  cases h : unit.componentIndex? with
  | none =>
    rw [lint_eq_skipped h] at hr
    rw [← Except.ok.inj hr] at hf
    exact absurd hf (by simp [skippedResult])
  | some k =>
    obtain ⟨before, d, body, after, hl, hreorders, hd, hplanned⟩ :=
      Outline.exists_layout_arranged h options
    have htarget : Target options unit (.ofClassified before d body after) :=
      ⟨⟨k, h, hd⟩, ⟨_, declares_reading h options, Composition.follows_ofClassified hl⟩, hreorders⟩
    obtain ⟨fix, hfix⟩ := exists_plan? h fun hb => by
      rw [lint_of_blocked hb] at hr
      exact absurd hr (by simp)
    have hplanned := hplanned fix hfix
    rw [lint_eq_of_plan? h hfix] at hr
    rw [← Except.ok.inj hr, checkedResult_fixed] at hf
    rw [← Except.ok.inj hr, checkedResult_diagnostics] at hk
    rw [← Except.ok.inj hr, checkedResult_fixedUnit, checkedResult_fixedSource]
    cases fix with
    | unchanged => exact absurd hf (by simp [changed])
    | reordered =>
      cases hplanned with
      | reordered hnone => exact absurd hnone hs
    | sourceKept => exact absurd rfl (hk _ (List.mem_singleton_self _))
    | spliced v => exact ⟨_, v, htarget, hplanned, rfl, rfl⟩

/-- What a fix that changes a unit and does not keep its source does. -/
theorem exists_spliced {options : Options} {unit : SourceUnit} {result : LintResult}
    (hs : unit.source ≠ none) (hr : lint options true unit = .ok result) (hf : result.fixed = true)
    (hk : ∀ d ∈ result.diagnostics, d.kind ≠ .sourceKept) :
    ∃ (order moved : Composition) (source text : String), unit.source = some (.text source) ∧
      Target options unit order ∧ result.fixedUnit =
        some { unit with statements := moved.statements, source := some (.text text) } ∧
      result.fixedSource = some (.text text) ∧ Tiled (Bytes.ofText source) unit order.component ∧
      Bytes.ofText text = moduleText (Bytes.ofText source) unit order ∧ order.MovedTo moved ∧
      StandsIn (Bytes.ofText source) (Bytes.ofText text) order moved := by
  obtain ⟨order, v, htarget, hplanned, hunit, hfixed⟩ := exists_planned_spliced hs hr hf hk
  cases hplanned with
  | spliced source text moved hsource htiled htext hmoved hstands =>
    exact ⟨order, moved, source, text, hsource, htarget, hunit, hfixed, htiled, htext, hmoved,
      hstands⟩

/-- The source of a fixed unit is the old one with the texts of its slots in the order of the
fix. -/
theorem fixed_source_slots (options : Options) (unit : SourceUnit) (result : LintResult)
    (hs : unit.source ≠ none) (hr : lint options true unit = .ok result) (hf : result.fixed = true)
    (hk : ∀ d ∈ result.diagnostics, d.kind ≠ .sourceKept) :
    ∃ (order : Composition) (source text : String), unit.source = some (.text source) ∧
      Target options unit order ∧ result.fixedSource = some (.text text) ∧
      SlotsPermuted unit order (Bytes.ofText source) (Bytes.ofText text) := by
  obtain ⟨order, moved, source, text, hsource, htarget, -, htext, htiled, hbytes, -, -⟩ :=
    exists_spliced hs hr hf hk
  refine ⟨order, source, text, hsource, htarget, htext, ?_⟩
  rw [hbytes]
  exact htiled.slotsPermuted htarget.reorders

/-- The source of this unit is rewritten. -/
theorem lint_lateImport : ∃ result, lint .standard true .lateImport = .ok result ∧
    result.fixed = true ∧ ∀ d ∈ result.diagnostics, d.kind ≠ .sourceKept := by
  have hc : SourceUnit.lateImport.componentIndex? = some 0 := by decide
  have hplan := plan?_eq_fixOf hc (not_blocked_of_text rfl .standard true)
  refine ⟨_, lint_eq_of_plan? hc hplan, ?_, ?_⟩
  · decide +kernel
  · decide +kernel

theorem fixed_source_slots_lateImport : ∃ result,
    lint .standard true .lateImport = .ok result ∧ result.fixed = true ∧
    ∃ (order : Composition) (source text : String),
      SourceUnit.lateImport.source = some (.text source) ∧ Target .standard .lateImport order ∧
      result.fixedSource = some (.text text) ∧
      SlotsPermuted .lateImport order (Bytes.ofText source) (Bytes.ofText text) := by
  obtain ⟨result, hr, hf, hk⟩ := lint_lateImport
  exact ⟨result, hr, hf,
    fixed_source_slots .standard .lateImport result (Option.some_ne_none _) hr hf hk⟩

/-- The statements of the fixed unit stand, in the new source, at the texts that they had in the old
one, the component at its text with the body in order. They lie in their slots as before, and the
slots tile the new source and the new component. -/
theorem fixed_spans (options : Options) (unit : SourceUnit) (result : LintResult)
    (hs : unit.source ≠ none) (hr : lint options true unit = .ok result) (hf : result.fixed = true)
    (hk : ∀ d ∈ result.diagnostics, d.kind ≠ .sourceKept) :
    ∃ (order moved : Composition) (v : SourceUnit) (source text : String),
      unit.source = some (.text source) ∧ Target options unit order ∧
      result.fixedUnit = some v ∧ v.statements = moved.statements ∧ v.source = some (.text text) ∧
      result.fixedSource = some (.text text) ∧ order.MovedTo moved ∧
      StandsIn (Bytes.ofText source) (Bytes.ofText text) order moved := by
  obtain ⟨order, moved, source, text, hsource, htarget, hunit, htext, -, -, hmoved, hstands⟩ :=
    exists_spliced hs hr hf hk
  exact ⟨order, moved, _, source, text, hsource, htarget, hunit, rfl, rfl, htext, hmoved, hstands⟩

theorem fixed_spans_lateImport : ∃ result,
    lint .standard true .lateImport = .ok result ∧ result.fixed = true ∧
    ∃ (order moved : Composition) (v : SourceUnit) (source text : String),
      SourceUnit.lateImport.source = some (.text source) ∧ Target .standard .lateImport order ∧
      result.fixedUnit = some v ∧ v.statements = moved.statements ∧ v.source = some (.text text) ∧
      result.fixedSource = some (.text text) ∧ order.MovedTo moved ∧
      StandsIn (Bytes.ofText source) (Bytes.ofText text) order moved := by
  obtain ⟨result, hr, hf, hk⟩ := lint_lateImport
  exact ⟨result, hr, hf,
    fixed_spans .standard .lateImport result (Option.some_ne_none _) hr hf hk⟩

/-- In the fixed unit a statement whose lines were known has those that its new span has in the new
source, and one whose lines were unknown keeps what it had. The lines and columns are those that
offsets have in any bytes, and no two offsets share theirs. -/
theorem fixed_lines (options : Options) (unit : SourceUnit) (result : LintResult)
    (hs : unit.source ≠ none) (hr : lint options true unit = .ok result) (hf : result.fixed = true)
    (hk : ∀ d ∈ result.diagnostics, d.kind ≠ .sourceKept) :
    (∃ (order moved : Composition) (v : SourceUnit) (source text : String),
      unit.source = some (.text source) ∧ Target options unit order ∧
      result.fixedUnit = some v ∧ v.statements = moved.statements ∧ v.source = some (.text text) ∧
      order.MovedTo moved ∧ StandsIn (Bytes.ofText source) (Bytes.ofText text) order moved ∧
      LinesFoundIn (Bytes.ofText text) order moved) ∧
    ∀ bytes : Bytes, Function.Injective (linePosition (bytes.lineFeeds 0)) ∧
      ∀ offset, bytes.PositionAt offset (linePosition (bytes.lineFeeds 0) offset).1
        (linePosition (bytes.lineFeeds 0) offset).2 := by
  refine ⟨?_, fun bytes => ⟨linePosition_injective _, bytes.positionAt_linePosition⟩⟩
  obtain ⟨order, v, htarget, hplanned, hunit, -⟩ := exists_planned_spliced hs hr hf hk
  cases hplanned with
  | spliced source text moved hsource _ _ hmoved hstands hlines =>
    exact ⟨order, moved, _, source, text, hsource, htarget, hunit, rfl, rfl, hmoved, hstands,
      hlines⟩

/-- A component over several lines with a state behind a function, and an import below the
component. The lines of the state are unknown. -/
def SourceUnit.lateImportBelow : SourceUnit where
  name := "Late"
  source := some
    "function A() \x7b\n  const f = () => 0\n\n  const [s] = useState(\n  )\n\x7d\nimport r\n"
  statements :=
    [{ kind := .functionStmt, names := ["A"]
       span := { start := 0, stop := 65, line := 1, endLine := 6 }
       body := some
        [{ kind := .variableStmt, names := ["f"], value := some .function
           span := { start := 17, stop := 34, line := 2, column := 2, endLine := 2 } },
         { kind := .variableStmt, names := ["s"], callee := some "useState"
           span := { start := 38, stop := 63, column := 9 } }] },
     { kind := .importStmt, moduleName := some "r"
       span := { start := 66, stop := 74, line := 7, endLine := 7 } }]

/-- The import moves up from the last line, and all others move down. -/
theorem fixed_lines_lateImportBelow : ∃ result,
    lint .standard true .lateImportBelow = .ok result ∧ result.fixed = true ∧
    (result.fixedUnit.map fun v => v.statements.flatMap fun s => s.span ::
      s.bodyStatements.map (·.span)) = some
        [{ start := 0, stop := 8, line := 1, endLine := 1 },
         { start := 9, stop := 74, line := 2, endLine := 7 },
         { start := 26, stop := 51, column := 9 },
         { start := 55, stop := 72, line := 6, column := 2, endLine := 6 }] ∧
    ∃ (order moved : Composition) (v : SourceUnit) (source text : String),
      SourceUnit.lateImportBelow.source = some (.text source) ∧
      Target .standard .lateImportBelow order ∧ result.fixedUnit = some v ∧
      v.statements = moved.statements ∧ v.source = some (.text text) ∧ order.MovedTo moved ∧
      StandsIn (Bytes.ofText source) (Bytes.ofText text) order moved ∧
      LinesFoundIn (Bytes.ofText text) order moved := by
  have hc : SourceUnit.lateImportBelow.componentIndex? = some 0 := by decide
  have hr := lint_eq_of_plan? hc (plan?_eq_fixOf hc (not_blocked_of_text rfl .standard true))
  obtain ⟨hlines, -⟩ := fixed_lines .standard .lateImportBelow _ (Option.some_ne_none _) hr
    (by decide +kernel) (by decide +kernel)
  refine ⟨_, hr, ?_, ?_, hlines⟩
  · decide +kernel
  · decide +kernel

end ComponentLint
