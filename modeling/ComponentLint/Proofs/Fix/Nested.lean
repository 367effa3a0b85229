import ComponentLint.Proofs.Fix.Source
/-
  Nested statements when the source is rewritten. A fix moves the statements of the module and of
  the component's body to the offsets of their texts, but not what is nested in their bodies: that
  keeps its spans, at any depth. The text of a nested statement moves with the slot around it
  (`slice_moved`), so its span is behind by as much as the slot was moved, and right if the slot
  stayed where it was.
-/

namespace ComponentLint

theorem Bytes.slice_slice (bytes : Bytes) {a b c d : Int} (ha : 0 ≤ a) (hac : a ≤ c) (hdb : d ≤ b) :
    (bytes.slice a b).slice (c - a) (d - a) = bytes.slice c d := by
  unfold slice
  have hdrop : a.toNat + (c - a).toNat = c.toNat := by omega
  have htake : min (d - a - (c - a)).toNat ((b - a).toNat - (c - a).toNat) = (d - c).toNat := by
    omega
  rw [List.drop_take, List.drop_drop, List.take_take, hdrop, htake]

namespace Statement

/-- The second statement is in the body of the first, at any depth, and every statement on the way
lies in the span of the one whose body it is in. -/
inductive Encloses : Statement → Statement → Prop where
  | child {p s : Statement} (mem : s ∈ p.bodyStatements) (start : p.span.start ≤ s.span.start)
    (stop : s.span.stop ≤ p.span.stop) : Encloses p s
  | deeper {p q s : Statement} (mem : q ∈ p.bodyStatements) (start : p.span.start ≤ q.span.start)
    (stop : q.span.stop ≤ p.span.stop) (inner : Encloses q s) : Encloses p s

theorem Encloses.within {p s : Statement} (h : p.Encloses s) :
    p.span.start ≤ s.span.start ∧ s.span.stop ≤ p.span.stop := by
  induction h with
  | child _ hstart hstop => exact ⟨hstart, hstop⟩
  | deeper _ hstart hstop _ ih => exact ⟨Int.le_trans hstart ih.1, Int.le_trans ih.2 hstop⟩

/-- How far the slot of a statement has moved. -/
def shift (p q : Statement) : Int :=
  q.slotStart - p.slotStart

/-- What lies in a slot moves with it. -/
theorem StandsAt.slice_moved {old new : Bytes} {p q s : Statement}
    (h : p.StandsAt new (p.slotText old) q) (hp : 0 ≤ p.slotStart) (hq : 0 ≤ q.slotStart)
    (hs : p.Encloses s) :
    new.slice (s.span.start + p.shift q) (s.span.stop + p.shift q) =
      old.slice s.span.start s.span.stop := by
  obtain ⟨hstart, hstop⟩ := hs.within
  have hslot := p.slotStart_le_start
  have hkept := h.kept.stop
  have hnew := Bytes.slice_slice new hq (c := s.span.start + p.shift q)
    (b := q.span.stop) (d := s.span.stop + p.shift q) (by unfold shift; omega)
    (by unfold shift; omega)
  have hold := Bytes.slice_slice old hp (c := s.span.start) (b := p.span.stop) (d := s.span.stop)
    (by omega) hstop
  have hfrom : s.span.start + p.shift q - q.slotStart = s.span.start - p.slotStart := by
    unfold shift
    omega
  have hto : s.span.stop + p.shift q - q.slotStart = s.span.stop - p.slotStart := by
    unfold shift
    omega
  rw [h.slice, hfrom, hto] at hnew
  exact hnew.symm.trans hold

/-- What becomes of the statements nested in a statement when it is moved. -/
structure LeavesNested (old new : Bytes) (p q : Statement) : Prop where
  /-- They are all kept as they are, spans included. -/
  body : q.body = p.body
  /-- Their texts have moved with the slot. -/
  text : ∀ s, p.Encloses s → new.slice (s.span.start + p.shift q) (s.span.stop + p.shift q) =
    old.slice s.span.start s.span.stop
  /-- So a span is right exactly if both places have the same text. -/
  right_iff : ∀ s, p.Encloses s →
    (new.slice s.span.start s.span.stop = old.slice s.span.start s.span.stop ↔
      new.slice s.span.start s.span.stop =
        new.slice (s.span.start + p.shift q) (s.span.stop + p.shift q))
  /-- It is right if the slot has not moved. -/
  right : p.shift q = 0 → ∀ s, p.Encloses s →
    new.slice s.span.start s.span.stop = old.slice s.span.start s.span.stop

theorem StandsAt.leavesNested {old new : Bytes} {p q : Statement}
    (h : p.StandsAt new (p.slotText old) q) (hm : p.MovedTo q) (hp : 0 ≤ p.slotStart)
    (hq : 0 ≤ q.slotStart) : LeavesNested old new p q := by
  refine ⟨by rw [hm], fun s hs => h.slice_moved hp hq hs, fun s hs => ?_, fun hzero s hs => ?_⟩
  · rw [h.slice_moved hp hq hs]
  · have htext := h.slice_moved hp hq hs
    rwa [hzero, Int.add_zero, Int.add_zero] at htext

end Statement

namespace Fix

/-- What is nested in the statements of a module other than its component, and in those of the
component's body, is left as it is. -/
structure LeavesNested (old new : Bytes) (a b : Composition) : Prop where
  before : List.Forall₂ (Statement.LeavesNested old new) a.before b.before
  body : List.Forall₂ (Statement.LeavesNested old new) a.body b.body
  after : List.Forall₂ (Statement.LeavesNested old new) a.after b.after

theorem forall₂_leavesNested {old new : Bytes} {ss ts : List Statement}
    (hstands : List.Forall₂ (fun s t => s.StandsAt new (s.slotText old) t) ss ts)
    (hmoved : List.Forall₂ Statement.MovedTo ss ts) (hss : ∀ s ∈ ss, 0 ≤ s.slotStart)
    (hts : ∀ t ∈ ts, 0 ≤ t.slotStart) :
    List.Forall₂ (Statement.LeavesNested old new) ss ts := by
  rw [List.forall₂_iff_zip] at *
  refine ⟨hstands.1, fun {s t} hmem => ?_⟩
  obtain ⟨hs, ht⟩ := List.of_mem_zip hmem
  exact (hstands.2 hmem).leavesNested (hmoved.2 hmem) (hss s hs) (hts t ht)

theorem Tiled.slotStart_nonneg {source : Bytes} {unit : SourceUnit} {component : Statement}
    (h : Tiled source unit component) :
    (∀ s ∈ unit.statements, 0 ≤ s.slotStart) ∧
      ∀ s ∈ component.bodyStatements, 0 ≤ s.slotStart := by
  have hmodule : ∀ s ∈ unit.statements, 0 ≤ s.slotStart := fun s hs =>
    (bounds_of_slotsTile h.module hs).1
  refine ⟨hmodule, fun s hs => ?_⟩
  have hcomponent := hmodule component h.mem
  have hstart := component.slotStart_le_start
  have hinner := (bounds_of_slotsTile h.inner hs).1
  omega

theorem StandsIn.slotStart_nonneg {old new : Bytes} {a b : Composition} (h : StandsIn old new a b) :
    (∀ s ∈ b.before ++ b.after, 0 ≤ s.slotStart) ∧ ∀ s ∈ b.body, 0 ≤ s.slotStart := by
  have hmodule : ∀ s ∈ b.statements, 0 ≤ s.slotStart := fun s hs =>
    (bounds_of_slotsTile h.module_tiles hs).1
  refine ⟨fun s hs => hmodule s ?_, fun s hs => ?_⟩
  · unfold Composition.statements
    rcases List.mem_append.1 hs with hs | hs
    · simp [hs]
    · simp [hs]
  · have hcomponent : 0 ≤ b.component.slotStart :=
      hmodule { b.component with body := some b.body } (by simp [Composition.statements])
    have hstart := b.component.slotStart_le_start
    have hinner := (bounds_of_slotsTile h.body_tiles hs).1
    omega

theorem StandsIn.leavesNested {old new : Bytes} {unit : SourceUnit} {a b : Composition}
    (h : StandsIn old new a b) (ht : Tiled old unit a.component) (hr : a.Reorders unit)
    (hm : a.MovedTo b) : LeavesNested old new a b := by
  obtain ⟨hmodule, hinner⟩ := ht.slotStart_nonneg
  obtain ⟨hmodule', hinner'⟩ := h.slotStart_nonneg
  have houter : ∀ s ∈ a.before ++ a.component :: a.after, 0 ≤ s.slotStart := fun s hs =>
    hmodule s (hr.module.subset hs)
  constructor
  · exact forall₂_leavesNested h.before hm.before (fun s hs => houter s (by simp [hs]))
      fun t ht => hmodule' t (by simp [ht])
  · exact forall₂_leavesNested h.body hm.body (fun s hs => hinner s (hr.body.subset hs)) hinner'
  · exact forall₂_leavesNested h.after hm.after (fun s hs => houter s (by simp [hs]))
      fun t ht => hmodule' t (by simp [ht])

end Fix

open ComponentLint.Fix

/-- When a fix rewrites the source, the statements nested in those that it moves keep their spans,
while their texts move with the slots around them. -/
theorem nested_spans_left (options : Options) (unit : SourceUnit) (result : LintResult)
    (hs : unit.source ≠ none) (hr : lint options true unit = .ok result) (hf : result.fixed = true)
    (hk : ∀ d ∈ result.diagnostics, d.kind ≠ .sourceKept) :
    ∃ (order moved : Composition) (v : SourceUnit) (source text : String),
      unit.source = some (.text source) ∧ Target options unit order ∧
      result.fixedUnit = some v ∧ v.statements = moved.statements ∧ v.source = some (.text text) ∧
      order.MovedTo moved ∧
      LeavesNested (Bytes.ofText source) (Bytes.ofText text) order moved := by
  obtain ⟨order, moved, source, text, hsource, htarget, hunit, -, htiled, -, hmoved, hstands⟩ :=
    exists_spliced hs hr hf hk
  exact ⟨order, moved, _, source, text, hsource, htarget, hunit, rfl, rfl, hmoved,
    hstands.leavesNested htiled htarget.reorders hmoved⟩

/-- A component with a state behind a function that has a body, and an import behind the
component. -/
def SourceUnit.lateArrow : SourceUnit where
  name := "Late"
  source := some "function A(){const f=()=>0;const[s]=useState();}import r;"
  statements :=
    [{ kind := .functionStmt, span := { start := 0, stop := 48, line := 1 }, names := ["A"]
       body := some
        [{ kind := .variableStmt, span := { start := 13, stop := 27, line := 1 }, names := ["f"]
           value := some .function
           body := some [{ kind := .returnStmt, span := { start := 25, stop := 26, line := 1 } }] },
         { kind := .variableStmt, span := { start := 27, stop := 47, line := 1 }, names := ["s"]
           callee := some "useState" }] },
     { kind := .importStmt, span := { start := 48, stop := 57, line := 1 }
       moduleName := some "r" }]

/-- The statements two bodies down. -/
def SourceUnit.innermost (unit : SourceUnit) : List Statement :=
  (unit.statements.flatMap (·.bodyStatements)).flatMap (·.bodyStatements)

/-- The source of this unit is rewritten, and the nested statement is left where it was. -/
theorem lint_lateArrow : ∃ result, lint .standard true .lateArrow = .ok result ∧
    result.fixed = true ∧ (∀ d ∈ result.diagnostics, d.kind ≠ .sourceKept) ∧
    ∃ v, result.fixedUnit = some v ∧
      v.source = some (.text "import r;function A(){const[s]=useState();const f=()=>0;}") ∧
      v.innermost.map (·.span) = SourceUnit.lateArrow.innermost.map (·.span) := by
  have hc : SourceUnit.lateArrow.componentIndex? = some 0 := by decide
  have hplan := plan?_eq_fixOf hc (not_blocked_of_text rfl .standard true)
  refine ⟨_, lint_eq_of_plan? hc hplan, ?_, ?_, _, rfl, ?_, ?_⟩
  · decide +kernel
  · decide +kernel
  · decide +kernel
  · decide +kernel

theorem nested_spans_left_lateArrow : ∃ result,
    lint .standard true .lateArrow = .ok result ∧ result.fixed = true ∧
    (∀ d ∈ result.diagnostics, d.kind ≠ .sourceKept) ∧
    ∃ (order moved : Composition) (v : SourceUnit) (source text : String),
      SourceUnit.lateArrow.source = some (.text source) ∧ Target .standard .lateArrow order ∧
      result.fixedUnit = some v ∧ v.statements = moved.statements ∧ v.source = some (.text text) ∧
      order.MovedTo moved ∧
      LeavesNested (Bytes.ofText source) (Bytes.ofText text) order moved := by
  obtain ⟨result, hr, hf, hk, -⟩ := lint_lateArrow
  exact ⟨result, hr, hf, hk,
    nested_spans_left .standard .lateArrow result (Option.some_ne_none _) hr hf hk⟩

/-- The value that the function of this unit returns is nested in it, in its span. Its text was `0`;
in the fixed unit there is an `s` at its span. -/
theorem nested_span_misses_text : ∃ result v text span,
    lint .standard true .lateArrow = .ok result ∧ result.fixed = true ∧
    (∀ d ∈ result.diagnostics, d.kind ≠ .sourceKept) ∧ result.fixedUnit = some v ∧
    v.source = some (.text text) ∧
    (∃ p ∈ SourceUnit.lateArrow.statements.flatMap (·.bodyStatements), ∃ s,
      p.Encloses s ∧ s.span = span) ∧
    SourceUnit.lateArrow.innermost.map (·.span) = [span] ∧ v.innermost.map (·.span) = [span] ∧
    (Bytes.ofText "function A(){const f=()=>0;const[s]=useState();}import r;").slice
      span.start span.stop = Bytes.ofText "0" ∧
    (Bytes.ofText text).slice span.start span.stop = Bytes.ofText "s" := by
  obtain ⟨result, hr, hf, hk, v, hv, hsource, hspans⟩ := lint_lateArrow
  refine ⟨result, v, _, { start := 25, stop := 26, line := 1 }, hr, hf, hk, hv, hsource, ?_, rfl,
    hspans, ?_, ?_⟩
  · refine ⟨_, List.mem_cons_self, _, .child (List.mem_singleton_self _) ?_ ?_, rfl⟩
    · decide
    · decide
  · decide +kernel
  · decide +kernel

end ComponentLint
