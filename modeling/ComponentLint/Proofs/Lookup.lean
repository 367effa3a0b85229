import ComponentLint.Document.Basic
import ComponentLint.Proofs.Fix.Plan
/-
  When linting fails. Every declaration of a unit has a place, and behind the classifier every
  look-up finds what it looks for (`LookupsFound`): a section its position in the section order and
  its graph, a declaration its place in the arrangement, a cycle the declarations on it, the first
  props type a type of its container, and a fix the component among the statements that it moves. So
  all that can fail is to take the bytes of a source (`lint_fails_iff_blocked`).
-/

namespace ComponentLint

open Validation

theorem SectionOrder.getElem?_position (order : SectionOrder) (place : Section) :
    order.sections[order.position place]? = some place :=
  List.getElem?_idxOf (order.mem_sections place)

/-- A section with members has its graph among those of the sequence. -/
theorem find?_sectionGraphs {ds : List Classified} {place : Section}
    (h : sectionMembers ds place ≠ []) :
    (sectionGraphs ds).find? (·.place == place) = some (.of ds place) := by
  obtain ⟨d, hd⟩ := List.exists_mem_of_ne_nil _ h
  have hplace : (sectionsPresent ds).find? (· == place) = some place := by
    have hsome : ((sectionsPresent ds).find? (· == place)).isSome = true :=
      List.find?_isSome.2 ⟨place, mem_sectionsPresent hd, beq_self_eq_true place⟩
    obtain ⟨s, hs⟩ := Option.isSome_iff_exists.1 hsome
    have heq : s = place := by simpa using List.find?_some hs
    rw [hs, heq]
  have hcomp : ((fun g : SectionGraph => g.place == place) ∘ SectionGraph.of ds) =
      fun s => s == place := rfl
  rw [sectionGraphs, List.find?_map, hcomp, hplace]
  rfl

/-- The position of a declaration is where it stands. -/
theorem getElem?_positionIn {arranged : List Classified} (h : Numbered arranged) {d : Classified}
    (hd : d ∈ arranged) : arranged[positionIn arranged d]? = some d := by
  have hget : (arranged.map (·.index))[positionIn arranged d]? = some d.index :=
    List.getElem?_idxOf (List.mem_map_of_mem hd)
  rw [List.getElem?_map, Option.map_eq_some_iff] at hget
  obtain ⟨e, he, hindex⟩ := hget
  rw [he, h.eq_of_index (List.mem_of_getElem? he) hd hindex]

/-- A cycle of a section has two members or more, all of that section. -/
theorem SectionGraph.of_mem_cycles {ds : List Classified} {place : Section} {cycle : List Nat}
    (h : cycle ∈ (SectionGraph.of ds place).cycles) :
    1 < cycle.length ∧ ∀ i ∈ cycle, ∃ d ∈ sectionMembers ds place, d.index = i := by
  obtain ⟨hc, hlen⟩ := List.mem_filter.1 (mem_sortBy.1 h)
  refine ⟨by simpa using hlen, fun i hi => ?_⟩
  have hnode := mem_nodes_edgesOf.1 (Graph.mem_nodes_of_mem_components (nodup_edgesOf _) hc hi)
  exact List.mem_map.1 hnode

/-- A cycle with a declaration on it is reported. -/
theorem isSome_cycleViolation? {ds : List Classified} {cycle : List Nat} {d : Classified}
    (hd : d ∈ ds) (hc : d.index ∈ cycle) (expected : Classified → Nat) :
    (cycleViolation? ds expected cycle).isSome = true := by
  have hmem : d ∈ cycleDeclarations ds cycle :=
    List.mem_filter.2 ⟨hd, List.contains_iff_mem.2 hc⟩
  obtain ⟨first, rest, heq⟩ := List.exists_cons_of_ne_nil (List.ne_nil_of_mem hmem)
  unfold cycleViolation?
  rw [heq]
  rfl

/-- A layout has no other component. -/
theorem Layout.eq_component {ds before body after : List Classified} {component d : Classified}
    (h : Layout ds before component body after) (hd : d ∈ ds) (hc : d.isComponent = true) :
    d = component := by
  rw [h.eq] at hd
  simp only [List.mem_append, List.mem_cons] at hd
  rcases hd with hd | hd | hd | hd
  · simp [(h.outside d (List.mem_append_left _ hd)).2] at hc
  · exact hd
  · simp [(h.inside d hd).2] at hc
  · simp [(h.outside d (List.mem_append_right _ hd)).2] at hc

theorem length_textOffsets {gs ts : List Bytes} (h : gs.length = ts.length + 1) (first : Int) :
    (textOffsets first gs ts).length = ts.length := by
  induction ts generalizing first gs with
  | nil => cases gs <;> rfl
  | cons t ts ih =>
    cases gs with
    | nil => simp at h
    | cons g gs =>
      have hgs : gs.length = ts.length + 1 := by simpa using h
      rw [textOffsets, List.length_cons, List.length_cons, ih hgs]

/-- Every look-up that is made while the declarations of a unit are checked and put in order finds
what it looks for. -/
structure LookupsFound (options : Options) (unit : SourceUnit) (ds : List Classified) : Prop where
  position : ∀ place, options.order.sections[options.order.position place]? = some place
  graph : ∀ place, sectionMembers ds place ≠ [] →
    (sectionGraphs ds).find? (·.place == place) = some (.of ds place)
  expected : ∀ d ∈ ds, (validate options ds).arranged[positionIn (validate options ds).arranged d]? =
    some d
  declared : ∀ d ∈ (validate options ds).arranged, d ∈ ds
  siblings : ∀ props, (sectionMembers ds .typesInterfaces).find? (·.isPropsType) = some props →
    inScope props.scope (sectionMembers ds .typesInterfaces) ≠ []
  cycles : ∀ graph ∈ sectionGraphs ds, ∀ cycle ∈ graph.cycles, cycle ≠ [] ∧
    (∀ i ∈ cycle, ∃ d ∈ ds, d.index = i) ∧
    (cycleViolation? ds (positionIn (validate options ds).arranged) cycle).isSome = true
  component : ∃ d, ds.find? (·.isComponent) = some d ∧
    (inScope .module (validate options ds).arranged).find? (·.isComponent) = some d
  /-- Whatever the texts of the statements are, the component has an offset. -/
  offset : ∀ (bytes : Bytes) (texts : List Bytes), texts.length = unit.statements.length →
    (((inScope .module (validate options ds).arranged).zip
      (textOffsets 0 (gaps bytes 0 bytes.length unit.statements) texts)).find?
        (·.1.isComponent)).isSome = true

theorem lookupsFound_reading {unit : SourceUnit} {k : Nat} (h : unit.componentIndex? = some k)
    (options : Options) : LookupsFound options unit (Outline.reading options.propsNames unit k) := by
  have hn := Outline.numbered_reading h options.propsNames
  have hperm := Outline.arranged_perm h options
  obtain ⟨ds₁, d, body, ds₂, hl⟩ := Outline.exists_layout_reading h options.propsNames
  obtain ⟨ds₁', d', body', ds₂', hl', hreorders, -, -⟩ := Outline.exists_layout_arranged h options
  have hmodule := hl'.inScope_module
  have hsame : d' = d := hl.eq_component (hperm.subset (by rw [hl'.eq]; simp)) hl'.isComponent
  constructor
  case position => exact options.order.getElem?_position
  case graph => exact fun place hne => find?_sectionGraphs hne
  case expected =>
    intro e he
    have hnodup : Numbered (validate options (Outline.reading options.propsNames unit k)).arranged :=
      (hperm.map _).nodup_iff.2 hn
    exact getElem?_positionIn hnodup (hperm.symm.subset he)
  case declared => exact fun e he => hperm.subset he
  case siblings =>
    intro props hprops
    exact List.ne_nil_of_mem (List.mem_filter.2 ⟨List.mem_of_find?_eq_some hprops, by simp⟩)
  case cycles =>
    intro graph hg cycle hc
    obtain ⟨place, -, rfl⟩ := List.mem_map.1 hg
    obtain ⟨hlen, hmembers⟩ := SectionGraph.of_mem_cycles hc
    have hdeclared : ∀ i ∈ cycle, ∃ e ∈ Outline.reading options.propsNames unit k, e.index = i := by
      intro i hi
      obtain ⟨e, he, hindex⟩ := hmembers i hi
      exact ⟨e, (sectionMembers_sublist _ place).subset he, hindex⟩
    obtain ⟨i, hi⟩ := List.length_pos_iff_exists_mem.1 (Nat.zero_lt_of_lt hlen)
    obtain ⟨e, he, rfl⟩ := hdeclared i hi
    exact ⟨List.ne_nil_of_mem hi, hdeclared, isSome_cycleViolation? he hi _⟩
  case component =>
    refine ⟨d, hl.find?_isComponent, ?_⟩
    rw [hmodule, hsame]
    exact Fix.find?_unique (fun e he => (hl'.outside e he).2) hl.isComponent
  case offset =>
    intro bytes texts htexts
    have hgaps : (gaps bytes 0 bytes.length unit.statements).length = texts.length + 1 := by
      rw [length_gaps, htexts]
    have hlen : (inScope .module (validate options (Outline.reading options.propsNames unit
        k)).arranged).length = (textOffsets 0 (gaps bytes 0 bytes.length unit.statements)
          texts).length := by
      have hmap := hreorders.module.length_eq
      rw [length_textOffsets hgaps, htexts, ← hmap, hmodule]
      simp [Composition.ofClassified]
    have hmem : d' ∈ ((inScope .module (validate options (Outline.reading options.propsNames unit
        k)).arranged).zip (textOffsets 0 (gaps bytes 0 bytes.length unit.statements) texts)).map
          Prod.fst := by
      rw [List.map_fst_zip (Nat.le_of_eq hlen), hmodule]
      simp
    obtain ⟨entry, hentry, heq⟩ := List.mem_map.1 hmem
    refine List.find?_isSome.2 ⟨entry, hentry, ?_⟩
    rw [heq]
    exact hl'.isComponent

/-- How linting a unit ends: a unit without a component is skipped; of any other, every declaration
has a place and every look-up finds what it looks for, and if the unit is not blocked there is a
result, with a fix exactly if one was asked for. -/
theorem lint_ends (options : Options) (fix : Bool) (unit : SourceUnit) :
    (unit.componentIndex? = none ∧ lint options fix unit = .ok (skippedResult unit)) ∨
      ∃ ds, unit.Declares options ds ∧ LookupsFound options unit ds ∧
        LintsTo options fix unit fun result =>
          ∃ made, made.isSome = fix ∧ result = checkedResult options unit ds made := by
  cases h : unit.componentIndex? with
  | none => exact Or.inl ⟨rfl, lint_eq_skipped h options fix⟩
  | some k =>
    refine Or.inr ⟨_, declares_reading h options, lookupsFound_reading h options, ?_⟩
    cases fix with
    | true => exact lintsTo_of_plan? h fun made _ => ⟨some made, rfl, rfl⟩
    | false => exact ⟨lint_of_blocked, fun _ => ⟨_, lint_eq_check h options, none, rfl, rfl⟩⟩

/-- Linting a unit fails in one way only, and exactly if a fix has something to move in a source
without bytes. No place is reached that should not be, and every look-up finds what it looks for. -/
theorem lint_fails_iff_blocked (options : Options) (fix : Bool) (unit : SourceUnit) :
    (∀ failure, lint options fix unit = .error failure ↔
      failure = .unencodable ∧ Blocked options fix unit) ∧
    ((unit.componentIndex? = none ∧ lint options fix unit = .ok (skippedResult unit)) ∨
      ∃ ds, unit.Declares options ds ∧ LookupsFound options unit ds ∧
        LintsTo options fix unit fun result =>
          ∃ made, made.isSome = fix ∧ result = checkedResult options unit ds made) := by
  refine ⟨fun failure => ⟨fun hfailure => ?_, fun h => h.1 ▸ lint_of_blocked h.2⟩,
    lint_ends options fix unit⟩
  rcases lint_ends options fix unit with ⟨-, hskipped⟩ | ⟨ds, -, -, hlints⟩
  · exact absurd (hskipped.symm.trans hfailure) (by simp)
  · by_cases hb : Blocked options fix unit
    · exact ⟨Except.error.inj (hfailure.symm.trans (hlints.fails hb)), hb⟩
    · obtain ⟨result, hresult, -⟩ := hlints.gives hb
      exact absurd (hresult.symm.trans hfailure) (by simp)

/-- This unit is read from its document and is checked, but it cannot be fixed. -/
theorem lint_unpairedSource :
    Document.read (Document.encode .unpairedSource) = .ok .unpairedSource ∧
    (∃ result, lint .standard false .unpairedSource = .ok result) ∧
    lint .standard true .unpairedSource = .error .unencodable := by
  have hc : SourceUnit.unpairedSource.componentIndex? = some 0 := by decide
  exact ⟨by rfl, ⟨_, lint_eq_check hc .standard⟩, lint_of_blocked blocked_unpairedSource⟩

end ComponentLint
