import ComponentLint.Proofs.Fix.Plan
/-
  Declarations put in order and numbered anew. Numbering changes no profile, so what an arrangement
  gives is ordered whatever its numbers are, and arranging it again, if only some of its sections,
  leaves it alone (`arrange_fixpoint`).
-/

namespace ComponentLint

open Profile Validation

/-- The declaration with another number. -/
def Classified.numbered (d : Classified) (index : Nat) : Classified :=
  { d with index }

@[simp] theorem Classified.numbered_index (d : Classified) (index : Nat) :
    (d.numbered index).index = index :=
  rfl

section

variable (ds : List Classified)

theorem renumber_eq_numbered :
    renumber ds = Outline.numbered (fun index d => Classified.numbered d index) 0 ds :=
  rfl

@[simp] theorem map_profile_renumber :
    (renumber ds).map Classified.profile = ds.map Classified.profile := by
  rw [renumber_eq_numbered]
  exact Outline.map_numbered _ _ _ _ _ fun _ _ _ => rfl

theorem map_index_renumber : (renumber ds).map (·.index) = List.range ds.length := by
  rw [renumber_eq_numbered, List.range_eq_range']
  exact Outline.map_index_numbered _ _ _ _ fun _ _ => rfl

theorem numbered_renumber : Numbered (renumber ds) := by
  unfold Numbered
  rw [map_index_renumber]
  exact List.nodup_range

theorem pairwise_index_renumber : (renumber ds).Pairwise fun d e => d.index ≤ e.index := by
  rw [← List.pairwise_map (R := (· ≤ ·)), map_index_renumber]
  exact List.pairwise_le_range

end

/-- Every declaration takes its position for its number. -/
theorem renumber_eq_map {ds : List Classified} (h : Numbered ds) :
    renumber ds = ds.map fun d => d.numbered (positionIn ds d) := by
  refine List.ext_getElem (by simp [renumber]) fun i h₁ h₂ => ?_
  have hi : i < ds.length := by simpa using h₂
  have hposition : positionIn ds ds[i] = i := by
    have := h.idxOf_getElem i (by simpa using hi)
    rwa [List.getElem_map] at this
  rw [List.getElem_map, hposition]
  simp [renumber, Classified.numbered]

/-- A layout stays one when its declarations are numbered otherwise. -/
theorem Layout.numbered {ds before body after : List Classified} {component : Classified}
    (h : Layout ds before component body after) (number : Classified → Nat) :
    Layout (ds.map fun d => d.numbered (number d)) (before.map fun d => d.numbered (number d))
      (component.numbered (number component)) (body.map fun d => d.numbered (number d))
      (after.map fun d => d.numbered (number d)) := by
  refine ⟨?_, h.scope, h.isComponent, fun d hd => ?_, fun d hd => ?_⟩
  · rw [h.eq, List.map_append, List.map_cons, List.map_append]
  · rw [← List.map_append] at hd
    obtain ⟨e, he, rfl⟩ := List.mem_map.1 hd
    exact h.outside e he
  · obtain ⟨e, he, rfl⟩ := List.mem_map.1 hd
    exact h.inside e he

namespace SourceUnit.Declares

variable {unit : SourceUnit} {options : Options} {ds : List Classified}

theorem numbered (h : unit.Declares options ds) : Numbered ds := by
  obtain ⟨k, hk, rfl⟩ := h.exists_reading
  exact Outline.numbered_reading hk options.propsNames

theorem exists_layout (h : unit.Declares options ds) :
    ∃ before component body after, Layout ds before component body after := by
  obtain ⟨k, hk, rfl⟩ := h.exists_reading
  exact Outline.exists_layout_reading hk options.propsNames

end SourceUnit.Declares

/-- The declarations put in order and numbered anew. -/
def rearranged (order : SectionOrder) (resorted : List Section) (ds : List Classified) :
    List Classified :=
  renumber (arrange order resorted (sectionGraphs ds) ds)

section

variable {ds before body after : List Classified} {component : Classified}

theorem numbered_arrange (hl : Layout ds before component body after) (hn : Numbered ds)
    (order : SectionOrder) (resorted : List Section) :
    Numbered (arrange order resorted (sectionGraphs ds) ds) :=
  ((arrange_perm hl hn order resorted).map _).nodup_iff.2 hn

theorem ordered_rearranged (hl : Layout ds before component body after) (hn : Numbered ds)
    (order : SectionOrder) (resorted : List Section) :
    Ordered order (· ∈ resorted) ((rearranged order resorted ds).map Classified.profile) := by
  unfold rearranged
  rw [map_profile_renumber]
  exact ordered_arrange hl hn order resorted

theorem Profile.Ordered.of_subset {order : SectionOrder} {again resorted : List Section}
    {ps : List Profile} (h : Ordered order (· ∈ resorted) ps) (hs : again ⊆ resorted) :
    Ordered order (· ∈ again) ps :=
  ⟨h.sections, fun place hp => h.sorted place (hs hp)⟩

/-- What is put in order stays as it is when some of its sections are sorted once more. -/
theorem arrange_rearranged (hl : Layout ds before component body after) (hn : Numbered ds)
    (order : SectionOrder) {again resorted : List Section} (hs : again ⊆ resorted) :
    arrange order again (sectionGraphs (rearranged order resorted ds))
      (rearranged order resorted ds) = rearranged order resorted ds := by
  obtain ⟨before', after', -, hlay⟩ := hl.arrange hn order resorted
  have hlay' := hlay.numbered (positionIn (arrange order resorted (sectionGraphs ds) ds))
  rw [← renumber_eq_map (numbered_arrange hl hn order resorted)] at hlay'
  rw [rearranged, arrange_eq_self_iff hlay' (numbered_renumber _) (pairwise_index_renumber _)]
  exact (ordered_rearranged hl hn order resorted).of_subset hs

end

/-- Arranging reaches a fixpoint in one step. The arranged declarations are all those of the unit,
in order; numbered anew, they are arranged as 0, 1, 2 and so on, whichever of the sorted sections
are sorted again. -/
theorem arrange_fixpoint (extraction options : Options) (unit : SourceUnit) (ds : List Classified)
    (resorted again : List Section) (h : unit.Declares extraction ds) (hs : again ⊆ resorted) :
    (arrange options.order resorted (sectionGraphs ds) ds).Perm ds ∧
      Ordered options.order (· ∈ resorted)
        ((rearranged options.order resorted ds).map Classified.profile) ∧
      arrange options.order again (sectionGraphs (rearranged options.order resorted ds))
        (rearranged options.order resorted ds) = rearranged options.order resorted ds ∧
      (rearranged options.order resorted ds).map (·.index) = List.range ds.length := by
  obtain ⟨before, component, body, after, hl⟩ := h.exists_layout
  have hperm := arrange_perm hl h.numbered options.order resorted
  refine ⟨hperm, ordered_rearranged hl h.numbered options.order resorted,
    arrange_rearranged hl h.numbered options.order hs, ?_⟩
  rw [rearranged, map_index_renumber, hperm.length_eq]

/-- Two states out of order, and functions of which two are out of order and two read each other. -/
def SourceUnit.tangled : SourceUnit where
  name := "Tangled"
  statements :=
    [{ kind := .functionStmt, span := { start := 0, stop := 90 }, names := ["App"]
       body := some
        [{ kind := .functionStmt, span := { start := 10, stop := 20 }, names := ["getZ"] },
         { kind := .functionStmt, span := { start := 20, stop := 30 }, names := ["getA"] },
         { kind := .functionStmt, span := { start := 30, stop := 40 }, names := ["getP"]
           reads := ["getQ"] },
         { kind := .functionStmt, span := { start := 40, stop := 50 }, names := ["getQ"]
           reads := ["getP"] },
         { kind := .variableStmt, span := { start := 50, stop := 60 }, names := ["b"]
           callee := some "useState" },
         { kind := .variableStmt, span := { start := 60, stop := 70 }, names := ["a"]
           callee := some "useState" }] },
     { kind := .importStmt, span := { start := 90, stop := 99 }, moduleName := some "react" }]

/-- Sorting the states of this unit and its functions, which are on a cycle, and then the functions
once more. -/
theorem arrange_fixpoint_tangled :
    ∃ ds, SourceUnit.tangled.Declares .standard ds ∧
      [Section.functions] ⊆ [.state, .functions] ∧
      arrange .canonical [.functions]
        (sectionGraphs (rearranged .canonical [.state, .functions] ds))
        (rearranged .canonical [.state, .functions] ds) =
          rearranged .canonical [.state, .functions] ds ∧
      (rearranged .canonical [.state, .functions] ds).map (·.name) =
        ["react", "App", "a", "b", "getZ", "getA", "getP", "getQ"] := by
  have hc : SourceUnit.tangled.componentIndex? = some 0 := by decide
  have hds := declares_reading hc .standard
  have hs : [Section.functions] ⊆ [.state, .functions] := by decide
  have hfix := arrange_fixpoint .standard .standard .tangled _ [.state, .functions] [.functions]
    hds hs
  refine ⟨_, hds, hs, hfix.2.2.1, ?_⟩
  decide +kernel

end ComponentLint
