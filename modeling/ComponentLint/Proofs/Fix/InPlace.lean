import ComponentLint.Proofs.Fix.Outcome
/-
  Splicing a source without moving anything. The texts of slots that tile a stretch begin where the
  slots do (`textOffsets_gaps`), in the module as in the component's body, so a statement is moved
  by nothing and at most its lines are found anew (`relocated_slotStart_eq_iff`). Splicing a unit in
  the order that it has therefore gives back its source and all its offsets, and gives back the unit
  if its lines are those of the source (`splice_in_place`). A fix that has nothing to move leaves
  the unit alone without looking at any of this.
-/

namespace ComponentLint

theorem textOffsets_gaps (source : Bytes) {start stop : Int} (h0 : 0 ≤ start)
    (hlen : stop ≤ source.length) {ss : List Statement} (h : slotsTile start stop ss = true) :
    textOffsets start (gaps source start stop ss) (ss.map (·.slotText source)) =
      ss.map (·.slotStart) := by
  induction ss generalizing start with
  | nil => rfl
  | cons s ss ih =>
    obtain ⟨h₁, h₂, h₃, hrest⟩ := slotsTile_cons.1 h
    have hgap := source.length_slice h0 h₁ (by omega)
    have htext : ((s.slotText source).length : Int) = s.span.stop - s.slotStart :=
      source.length_slice (by omega) h₃ (by omega)
    have hoffset : start + (source.slice start s.slotStart).length = s.slotStart := by omega
    have hnext : s.slotStart + (s.slotText source).length = s.span.stop := by omega
    rw [gaps, List.map_cons, textOffsets, hoffset, hnext, ih (by omega) hrest, List.map_cons]

/-! ## Lines found anew -/

theorem Bytes.LineStart.unique {bytes : Bytes} {offset start start' : Int}
    (h : bytes.LineStart offset start) (h' : bytes.LineStart offset start') : start = start' := by
  cases h with
  | first hnone =>
    cases h' with
    | first => rfl
    | behind i hfeed hlt =>
      have := hnone i hfeed
      omega
  | behind i hfeed hlt hlast =>
    cases h' with
    | first hnone =>
      have := hnone i hfeed
      omega
    | behind j hfeed' hlt' hlast' =>
      have := hlast j hfeed' hlt'
      have := hlast' i hfeed hlt
      omega

theorem Bytes.positionAt_iff {bytes : Bytes} {offset line column : Int} :
    bytes.PositionAt offset line column ↔
      linePosition (bytes.lineFeeds 0) offset = (line, column) := by
  have hfound := bytes.positionAt_linePosition offset
  constructor
  · intro h
    obtain ⟨start, hstart, hcolumn⟩ := h.column
    obtain ⟨start', hstart', hcolumn'⟩ := hfound.column
    refine Prod.ext (hfound.line.trans h.line.symm) ?_
    rw [hcolumn', hcolumn, hstart.unique hstart']
  · intro h
    rw [h] at hfound
    exact hfound

theorem Span.linesIn_iff {bytes : Bytes} {span : Span} :
    span.LinesIn bytes ↔
      linePosition (bytes.lineFeeds 0) span.start = (span.line, span.column) ∧
        (linePosition (bytes.lineFeeds 0) span.stop).1 = span.endLine := by
  rw [(bytes.positionAt_linePosition span.stop).line]
  constructor
  · exact fun h => ⟨Bytes.positionAt_iff.1 h.start, h.stop.symm⟩
  · exact fun h => ⟨Bytes.positionAt_iff.2 h.1, h.2.symm⟩

instance (bytes : Bytes) (span : Span) : Decidable (span.LinesIn bytes) :=
  decidable_of_iff _ Span.linesIn_iff.symm

/-- A span that is not moved has its lines found anew, if they were known. -/
theorem Span.moved_zero_eq_iff {bytes : Bytes} {span : Span} :
    span.moved (bytes.lineFeeds 0) 0 = span ↔ (span.line ≠ 0 → span.LinesIn bytes) := by
  obtain ⟨start, stop, line, column, endLine⟩ := span
  unfold moved
  rw [linesIn_iff]
  by_cases hline : line = 0
  · simp [hline]
  · simp [hline, Prod.ext_iff, and_assoc]

/-- The statement keeps its offsets and all that it holds. Its lines are found anew if they were
known. -/
structure Statement.LeftInPlace (bytes : Bytes) (s t : Statement) : Prop where
  start : t.span.start = s.span.start
  stop : t.span.stop = s.span.stop
  leading : t.leadingStart = s.leadingStart
  others : s.MovedTo t
  lines : s.LinesFound bytes t

namespace Statement

theorem leftInPlace_relocated (bytes : Bytes) (s : Statement) :
    s.LeftInPlace bytes (s.relocated (bytes.lineFeeds 0) s.slotStart) where
  start := by rw [relocated_start, Int.sub_self, Int.add_zero]
  stop := by rw [relocated_stop, Int.sub_self, Int.add_zero]
  leading := by
    rw [relocated_leadingStart, Int.sub_self]
    simp
  others := rfl
  lines := s.linesFound_relocated bytes s.slotStart

theorem relocated_slotStart_eq_iff {bytes : Bytes} {s : Statement} :
    s.relocated (bytes.lineFeeds 0) s.slotStart = s ↔
      (s.span.line ≠ 0 → s.span.LinesIn bytes) := by
  have hspan : (s.relocated (bytes.lineFeeds 0) s.slotStart).span =
      s.span.moved (bytes.lineFeeds 0) 0 := by
    unfold relocated
    rw [Int.sub_self]
  rw [← Span.moved_zero_eq_iff, ← hspan]
  constructor
  · exact fun h => congrArg (·.span) h
  · intro h
    have hput := s.leftInPlace_relocated bytes
    rw [hput.others, h, hput.leading]
    exact s.movedTo_refl.symm

theorem with_body_inj {s t : Statement} (h : s.body = t.body) {body body' : List Statement} :
    ({ s with body := some body } : Statement) = { t with body := some body' } ↔
      s = t ∧ body = body' := by
  have hback : ∀ (u : Statement) (other : Option (List Statement)),
      { ({ u with body := other } : Statement) with body := u.body } = u := by
    intro u other
    cases u
    rfl
  constructor
  · intro heq
    refine ⟨?_, Option.some.inj (congrArg (·.body) heq)⟩
    rw [← hback s (some body), heq, h, hback]
  · rintro ⟨rfl, rfl⟩
    rfl

end Statement

namespace Composition

/-- Statements of two compositions that correspond to each other are related. -/
structure Rel (R : Statement → Statement → Prop) (a b : Composition) : Prop where
  before : List.Forall₂ R a.before b.before
  component : R a.component b.component
  body : List.Forall₂ R a.body b.body
  after : List.Forall₂ R a.after b.after

/-- The composition with every statement changed. -/
def map (f : Statement → Statement) (a : Composition) : Composition :=
  ⟨a.before.map f, f a.component, a.body.map f, a.after.map f⟩

theorem rel_map {R : Statement → Statement → Prop} {f : Statement → Statement}
    (h : ∀ s, R s (f s)) (a : Composition) : a.Rel R (a.map f) := by
  have hall : ∀ ss : List Statement, List.Forall₂ R ss (ss.map f) := fun ss =>
    List.forall₂_map_right_iff.2 (List.forall₂_same.2 fun s _ => h s)
  exact ⟨hall _, h _, hall _, hall _⟩

/-- A change that does not touch bodies leaves the statements of a composition alone if it leaves
each of them alone. -/
theorem statements_map_eq_iff {f : Statement → Statement} (hf : ∀ s, (f s).body = s.body)
    (a : Composition) : (a.map f).statements = a.statements ↔
      ∀ s ∈ a.before ++ a.component :: a.after ++ a.body, f s = s := by
  have hall : ∀ ss : List Statement, ss.map f = ss ↔ ∀ s ∈ ss, f s = s := fun ss => by
    conv_lhs => rhs; rw [← List.map_id ss]
    exact List.map_inj_left
  have hparts : (a.map f).statements = a.statements ↔ a.before.map f = a.before ∧
      (f a.component = a.component ∧ a.body.map f = a.body) ∧ a.after.map f = a.after := by
    rw [← Statement.with_body_inj (hf a.component), ← List.cons_eq_cons]
    constructor
    · exact fun h => List.append_inj h (List.length_map f)
    · exact fun h => congrArg₂ (· ++ ·) h.1 h.2
  rw [hparts, hall, hall, hall]
  simp only [List.forall_mem_append, List.forall_mem_cons]
  tauto

/-- The statements of a unit in the order that they have, around its component. -/
structure Lists (a : Composition) (unit : SourceUnit) : Prop where
  module : a.before ++ a.component :: a.after = unit.statements
  body : a.component.body = some a.body

namespace Lists

variable {a : Composition} {unit : SourceUnit} (h : a.Lists unit)

include h

theorem bodyStatements_eq : a.component.bodyStatements = a.body := by
  rw [Statement.bodyStatements, h.body, Option.getD_some]

theorem statements_eq : a.statements = unit.statements := by
  rw [← h.module, statements, ← h.bodyStatements_eq, Statement.with_bodyStatements]
  rw [h.body, Option.isSome_some]

theorem reorders : a.Reorders unit :=
  ⟨.of_eq h.module, .of_eq h.bodyStatements_eq.symm⟩

end Lists

end Composition

/-! ## Splicing in place -/

theorem placed_slotStart (lineFeeds : List Int) (ss : List Statement) :
    placed lineFeeds ss (ss.map (·.slotStart)) =
      ss.map fun s => s.relocated lineFeeds s.slotStart := by
  induction ss with
  | nil => rfl
  | cons s ss ih =>
    unfold placed at ih ⊢
    rw [List.map_cons, List.zip_cons_cons, List.map_cons, List.map_cons, ih]

namespace Fix

section

variable {bytes : Bytes} {unit : SourceUnit} {a : Composition}

theorem Tiled.moduleTexts_eq (h : Tiled bytes unit a.component) (ha : a.Lists unit) :
    moduleTexts bytes a = unit.statements.map (·.slotText bytes) := by
  rw [moduleTexts, componentText, ← ha.bodyStatements_eq, h.innerGaps_eq, ← ha.module,
    List.map_append, List.map_cons]

theorem Tiled.moduleText_eq (h : Tiled bytes unit a.component) (ha : a.Lists unit) :
    moduleText bytes unit a = bytes := by
  rw [moduleText, h.moduleTexts_eq ha, h.moduleGaps_eq]

/-- Every text of the module stands where its slot begins. -/
theorem Tiled.offsets_slotStart (h : Tiled bytes unit a.component) (ha : a.Lists unit) :
    Offsets bytes unit a (a.before.map (·.slotStart)) a.component.slotStart
      (a.after.map (·.slotStart)) := by
  obtain ⟨offsets, offset, offsets', ho⟩ := exists_offsets bytes ha.reorders
  have heq := ho.eq
  rw [h.moduleTexts_eq ha, moduleGaps,
    textOffsets_gaps bytes (Int.le_refl 0) (Int.le_refl _) h.module, ← ha.module, List.map_append,
    List.map_cons] at heq
  obtain ⟨rfl, htail⟩ := List.append_inj heq (by rw [List.length_map, ho.before.length_eq])
  obtain ⟨rfl, rfl⟩ := List.cons.inj htail
  exact ho

/-- Every text of the body stands where its slot begins. -/
theorem Tiled.textOffsets_body (h : Tiled bytes unit a.component) (ha : a.Lists unit) :
    textOffsets a.component.slotStart (innerGaps bytes a.component)
      (a.body.map (·.slotText bytes)) = a.body.map (·.slotStart) := by
  obtain ⟨hstart, -, hstop⟩ := bounds_of_slotsTile h.module h.mem
  have hinner := slotsTile_of_le a.component.slotStart_le_start h.inner
  rw [innerGaps, ← ha.bodyStatements_eq]
  exact textOffsets_gaps bytes hstart hstop hinner

theorem Tiled.placedAt_slotStart (h : Tiled bytes unit a.component) (ha : a.Lists unit)
    (lineFeeds : List Int) :
    placedAt bytes lineFeeds a (a.before.map (·.slotStart)) a.component.slotStart
      (a.after.map (·.slotStart)) = a.map fun s => s.relocated lineFeeds s.slotStart := by
  unfold placedAt Composition.map
  rw [h.textOffsets_body ha, placed_slotStart, placed_slotStart, placed_slotStart]

/-- Splicing in the order that the statements have. -/
theorem Tiled.splice_eq_ok {source : String} {ds before body after : List Classified}
    {d : Classified} (h : Tiled (Bytes.ofText source) unit a.component) (ha : a.Lists unit)
    (hl : Layout ds before d body after) (he : a = .ofClassified before d body after) :
    splice unit (.ofText source) d.statement (before ++ d :: after) body = .ok { unit with
      statements := (a.map fun s =>
        s.relocated ((Bytes.ofText source).lineFeeds 0) s.slotStart).statements
      source := some (.text source) } := by
  rw [splice_eq hl he (h.offsets_slotStart ha), h.module, h.inner, h.moduleText_eq ha,
    Bytes.toText?_ofText, h.placedAt_slotStart ha]
  rfl

end

end Fix

/-- The declarations of a unit are laid out as its statements are. -/
theorem SourceUnit.Declares.exists_lists {unit : SourceUnit} {options : Options}
    {ds : List Classified} (h : unit.Declares options ds) {k : Nat} {component : Statement}
    (hk : unit.componentIndex? = some k) (hc : unit.statements[k]? = some component) :
    ∃ before d body after, Layout ds before d body after ∧
      (Composition.ofClassified before d body after).Lists unit ∧ d.statement = component := by
  rw [declares_iff_eq hk] at h
  obtain ⟨before, component', after, rfl, hp⟩ := Outline.exists_parts hk
  obtain ⟨ds₁, d, body, ds₂, hl, hbefore, hd, hbody, hafter⟩ :=
    Outline.layout_reading hp options.propsNames
  have hsame : component' = component := by
    rw [hp.eq, List.getElem?_append_right (Nat.le_refl _), Nat.sub_self] at hc
    exact Option.some.inj hc
  refine ⟨ds₁, d, body, ds₂, h ▸ hl, ⟨?_, ?_⟩, hd.trans hsame⟩
  · unfold Composition.ofClassified
    dsimp only
    rw [hbefore, hd, hafter, hp.eq]
  · obtain ⟨inner, hinner⟩ :=
      Option.isSome_iff_exists.1 (Statement.isSome_body_of_isComponent hp.isComponent)
    unfold Composition.ofClassified
    dsimp only
    rw [hd, hbody, Statement.bodyStatements, hinner, Option.getD_some]

open ComponentLint.Fix

/-- A fix with nothing to move leaves the unit alone, and splicing says the same where the slots of
the module tile the source and those of the body the component: it gives back the source and every
statement at its offsets, and the unit itself exactly if all lines that are known are those of the
source. -/
theorem splice_in_place (options : Options) (unit : SourceUnit) (source : String)
    (ds : List Classified) (k : Nat) (component : Statement) (hds : unit.Declares options ds)
    (hk : unit.componentIndex? = some k) (hc : unit.statements[k]? = some component)
    (hs : unit.source = some (.text source))
    (hmodule : SlotsInTurn 0 (Bytes.ofText source).length unit.statements)
    (hbody : SlotsInTurn component.span.start component.span.stop component.bodyStatements) :
    plan? unit ds ds = some (.unchanged unit) ∧
    (inScope .module ds).map (·.statement) = unit.statements ∧
    (inScope .component ds).map (·.statement) = component.bodyStatements ∧
    ∃ (v : SourceUnit) (a b : Composition),
      splice unit (.ofText source) component (inScope .module ds) (inScope .component ds) = .ok v ∧
      v.name = unit.name ∧ v.source = unit.source ∧ v.statements = b.statements ∧
      a.Lists unit ∧ a.component = component ∧
      a.Rel (Statement.LeftInPlace (Bytes.ofText source)) b ∧
      (v = unit ↔ ∀ s ∈ unit.statements ++ component.bodyStatements,
        s.span.line ≠ 0 → s.span.LinesIn (Bytes.ofText source)) := by
  obtain ⟨before, d, body, after, hl, ha, rfl⟩ := hds.exists_lists hk hc
  have hfollows := Composition.follows_ofClassified hl
  have htiled : Tiled (Bytes.ofText source) unit d.statement :=
    ⟨List.mem_of_getElem? hc, slotsTile_iff.2 hmodule, slotsTile_iff.2 hbody⟩
  have hsplice := (congrArg₂ (splice unit (.ofText source) d.statement) hl.inScope_module
    hl.inScope_component).trans (htiled.splice_eq_ok ha hl rfl)
  refine ⟨if_pos rfl, hfollows.module.trans ha.module,
    hfollows.body.trans ha.bodyStatements_eq.symm, _, _, _, hsplice, rfl, hs.symm, rfl, ha, rfl,
    Composition.rel_map (Statement.leftInPlace_relocated _) _, ?_⟩
  have hstatements := Composition.statements_map_eq_iff
    (f := fun s => s.relocated ((Bytes.ofText source).lineFeeds 0) s.slotStart) (fun _ => rfl)
    (.ofClassified before d body after)
  rw [ha.statements_eq, ha.module, ← ha.bodyStatements_eq] at hstatements
  rw [← forall₂_congr fun s _ => Statement.relocated_slotStart_eq_iff]
  refine Iff.trans ⟨fun h => congrArg (·.statements) h, fun h => ?_⟩ hstatements
  rw [h, ← hs]

/-- A state and what is returned, below a commented import. The state has a comment of its own, and
stands on line 6. -/
def SourceUnit.commented (line : Int) : SourceUnit where
  name := "Commented"
  source := some ("// é\nimport r\n\nfunction A() \x7b\n  // count\n  const [s] = useState(0)\n\n" ++
    "  return s\n\x7d\n")
  statements :=
    [{ kind := .importStmt, moduleName := some "r", leadingStart := some 0
       leadingComment := some "// é"
       span := { start := 6, stop := 14, line := 2, endLine := 2 } },
     { kind := .functionStmt, names := ["A"]
       span := { start := 16, stop := 81, line := 4, endLine := 9 }
       body := some
        [{ kind := .variableStmt, names := ["s"], callee := some "useState"
           leadingStart := some 33, leadingComment := some "// count"
           span := { start := 44, stop := 67, line := line, column := 2, endLine := 6 } },
         { kind := .returnStmt, reads := ["s"]
           span := { start := 71, stop := 79, line := 8, column := 2, endLine := 8 } }] }]

/-- The unit with the right line is spliced to itself. With another line it is spliced to one that
has the same source and the right line. -/
theorem commented_in_place :
    (∃ ds source component, (SourceUnit.commented 6).Declares .standard ds ∧
      (SourceUnit.commented 6).source = some (.text source) ∧
      (SourceUnit.commented 6).statements[1]? = some component ∧
      plan? (.commented 6) ds ds = some (.unchanged (.commented 6)) ∧
      splice (.commented 6) (.ofText source) component (inScope .module ds)
        (inScope .component ds) = .ok (.commented 6)) ∧
    ∃ ds source component v, (SourceUnit.commented 5).Declares .standard ds ∧
      (SourceUnit.commented 5).source = some (.text source) ∧
      (SourceUnit.commented 5).statements[1]? = some component ∧
      splice (.commented 5) (.ofText source) component (inScope .module ds)
        (inScope .component ds) = .ok v ∧
      v.source = some (.text source) ∧ v ≠ .commented 5 := by
  constructor
  · have hk : (SourceUnit.commented 6).componentIndex? = some 1 := by decide
    have hds := declares_reading hk .standard
    obtain ⟨hplan, -, -, v, -, -, hsplice, -, -, -, -, -, -, hlines⟩ :=
      splice_in_place .standard (.commented 6) _ _ 1 _ hds hk rfl rfl
        (slotsTile_iff.1 (by decide +kernel)) (slotsTile_iff.1 (by decide +kernel))
    rw [hlines.2 (by decide +kernel)] at hsplice
    exact ⟨_, _, _, hds, rfl, rfl, hplan, hsplice⟩
  · have hk : (SourceUnit.commented 5).componentIndex? = some 1 := by decide
    have hds := declares_reading hk .standard
    obtain ⟨-, -, -, v, -, -, hsplice, -, hsource, -, -, -, -, hlines⟩ :=
      splice_in_place .standard (.commented 5) _ _ 1 _ hds hk rfl rfl
        (slotsTile_iff.1 (by decide +kernel)) (slotsTile_iff.1 (by decide +kernel))
    exact ⟨_, _, _, v, hds, rfl, rfl, hsplice, hsource, mt hlines.1 (by decide +kernel)⟩

end ComponentLint
