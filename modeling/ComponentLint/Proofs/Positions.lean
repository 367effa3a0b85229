import ComponentLint.Proofs.Arrangement.Matching
/-
  What an arrangement does not look at: where the statements stand in the source. A statement at
  another position is read as before, but for the name of one that has none of its own, which is
  made of its line (`read_repositioned`). Such a name binds nothing and suggests no section, so it
  matters only where it is compared with others. Hence units that differ in positions only, and
  agree on the lines that are compared, are arranged alike (`arrangement_ignores_positions`).
-/

namespace ComponentLint

open Outline

/-- The statements differ in their positions only, and so do the statements of their bodies. -/
inductive Statement.Repositioned : Statement → Statement → Prop
  | intro {s t : Statement} (alike : s.Alike t)
      (body : List.Forall₂ Repositioned s.bodyStatements t.bodyStatements) : Repositioned s t

theorem Statement.Repositioned.alike {s t : Statement} (h : s.Repositioned t) : s.Alike t := by
  obtain ⟨halike, -⟩ := h
  exact halike

/-- The units differ in the positions of their statements and in their sources only. -/
structure SourceUnit.Repositioned (unit v : SourceUnit) : Prop where
  name : v.name = unit.name
  statements : List.Forall₂ Statement.Repositioned unit.statements v.statements

/-- A declaration of this kind has a name of its own, whatever its statement declares. -/
def Kind.hasName : Kind → Bool
  | .imports _ _ | .exports _ | .hook _ | .render => true
  | _ => false

/-- The declaration has no name but the line of its statement. -/
def Declaration.isNamedByLine (d : Declaration) : Bool :=
  d.statement.names.isEmpty && !d.kind.hasName

/-- The name of the declaration is made of its line, and sorting can compare it with others. -/
def Classified.ComparedByLine (options : Options) (d : Classified) : Prop :=
  d.isNamedByLine = true ∧ ∃ place, d.section? = some place ∧ options.Sorts place

/-! ## Names -/

/-- A name that begins with a bracket suggests no section. -/
theorem Naming.suggested?_bracket (text : String) : suggested? ("<" ++ text) = none := by
  have htext : ("<" ++ text).toList = '<' :: text.toList := by simp
  unfold suggested? suggestions startsWithWord
  rw [htext]
  rfl

namespace Statement

variable {s t : Statement}

theorem Alike.names (h : s.Alike t) : t.names = s.names := by
  rw [h.eq]

theorem Alike.declaredName (h : s.Alike t) {kind : Kind}
    (hline : s.names.isEmpty = true → kind.hasName = false → t.span.line = s.span.line) :
    t.declaredName kind = s.declaredName kind := by
  have hkind : t.kind = s.kind := by rw [h.eq]
  unfold Statement.declaredName
  rw [h.name?, h.names, hkind]
  cases hs : s.names with
  | nil =>
    rw [hs] at hline
    cases kind <;> first | rfl | rw [hline rfl rfl]
  | cons name names =>
    have hname : s.name? = some name := by
      unfold Statement.name?
      rw [hs]
      rfl
    rw [hname]
    rfl

theorem declaredName_of_nameless {kind : Kind} (hs : s.names.isEmpty = true)
    (hk : kind.hasName = false) : ∃ text, s.declaredName kind = "<" ++ text := by
  have hname : s.name? = none := by
    unfold Statement.name?
    rw [List.isEmpty_iff.1 hs]
    rfl
  refine ⟨s.kind.id ++ "@" ++ toString s.span.line ++ ">", ?_⟩
  unfold Statement.declaredName
  rw [hname]
  cases kind <;> first | (simp [String.append_assoc]; done) | cases hk

/-- The section that the name suggests does not depend on the line. -/
theorem Alike.suggested? (h : s.Alike t) (kind : Kind) :
    Naming.suggested? (t.declaredName kind) = Naming.suggested? (s.declaredName kind) := by
  by_cases hs : s.names.isEmpty = true ∧ kind.hasName = false
  · obtain ⟨text, htext⟩ := declaredName_of_nameless hs.1 hs.2
    obtain ⟨text', htext'⟩ := declaredName_of_nameless (s := t) (by rw [h.names, hs.1]) hs.2
    rw [htext, htext', Naming.suggested?_bracket, Naming.suggested?_bracket]
  · rw [h.declaredName fun hn hk => absurd ⟨hn, hk⟩ hs]

theorem boundNames_of_nameless (hs : s.names.isEmpty = true) : s.boundNames = [] := by
  unfold Statement.boundNames
  split
  · rfl
  · rfl
  · rfl
  · rfl
  · exact List.isEmpty_iff.1 hs

end Statement

namespace Declaration

variable {d e : Declaration} {c : Classification}

/-- Of a name, a classification looks only at the section that it suggests. -/
theorem classifyBinding_congr (hname : Naming.suggested? e.name = Naming.suggested? d.name)
    (hscope : e.scope = d.scope) {shape : Section} (h : d.classifyBinding shape = .ok c) :
    e.classifyBinding shape = .ok c := by
  unfold classifyBinding at *
  rw [hscope, hname]
  cases hs : d.scope with
  | module =>
    rw [hs] at h
    cases h
  | component =>
    rw [hs] at h
    exact h

theorem classify_congr (hname : Naming.suggested? e.name = Naming.suggested? d.name)
    (hkind : e.kind = d.kind) (hscope : e.scope = d.scope) (hhint : e.hint = d.hint)
    (h : d.classify = .ok c) : e.classify = .ok c := by
  unfold classify at *
  rw [hhint, hkind]
  split at h
  · exact h
  · split at h
    case h_10 => exact classifyBinding_congr hname hscope h
    case h_11 => exact classifyBinding_congr hname hscope h
    all_goals exact h

theorem placement_placed (h : d.classify = .ok c) : d.placed.placement = c.placement := by
  unfold placed
  rw [h]

end Declaration

/-! ## The reading of a unit -/

namespace Outline

/-- The entries stand at the same place of the outline. -/
structure Entry.Repositioned (a b : Entry) : Prop where
  alike : a.statement.Alike b.statement
  scope : b.scope = a.scope
  isComponent : b.isComponent = a.isComponent
  isLast : b.isLast = a.isLast

theorem bodyEntries_repositioned {ss ts : List Statement}
    (h : List.Forall₂ Statement.Repositioned ss ts) :
    List.Forall₂ Entry.Repositioned (bodyEntries ss) (bodyEntries ts) := by
  induction h with
  | nil => exact .nil
  | cons hst hrest ih =>
    cases hrest with
    | nil => exact .cons ⟨hst.alike, rfl, rfl, rfl⟩ .nil
    | cons _ _ => exact .cons ⟨hst.alike, rfl, rfl, rfl⟩ ih

theorem moduleEntry_repositioned {ss ts : List Statement}
    (h : List.Forall₂ Statement.Repositioned ss ts) :
    List.Forall₂ Entry.Repositioned (ss.map moduleEntry) (ts.map moduleEntry) := by
  refine List.forall₂_map_left_iff.2 (List.forall₂_map_right_iff.2 (h.imp fun s t hst => ?_))
  exact ⟨hst.alike, rfl, rfl, rfl⟩

theorem numbered_forall₂ {α β γ δ : Type} {R : α → β → Prop} {S : γ → δ → Prop}
    {f : Nat → α → γ} {g : Nat → β → δ} {l : List α} {m : List β} (h : List.Forall₂ R l m)
    (hfg : ∀ i a b, R a b → S (f i a) (g i b)) (first : Nat) :
    List.Forall₂ S (numbered f first l) (numbered g first m) := by
  induction h generalizing first with
  | nil => exact .nil
  | cons hab _ ih => exact .cons (hfg first _ _ hab) (ih (first + 1))

/-- The declarations differ in the positions of their statements, and in their names if these are
made of different lines. -/
structure Reread (d e : Classified) : Prop extends Classified.Alike d e where
  name : (d.isNamedByLine = true → e.statement.span.line = d.statement.span.line) →
    d.name = e.name
  nameless : d.isNamedByLine = true → d.bound = []

section

variable (setting : Statement.Setting) (declared : List String) (index : Nat) {a b : Entry}

theorem kind_declaration (h : Entry.Repositioned a b) :
    (declaration setting declared index b).kind = (declaration setting declared index a).kind := by
  show (if b.isComponent then Kind.component else _) = (if a.isComponent then Kind.component else _)
  rw [h.isComponent, h.scope, h.isLast, h.alike.declaredKind]

theorem placement_read (h : Entry.Repositioned a b) :
    (read setting declared index a).placement = (read setting declared index b).placement := by
  have hkind := kind_declaration setting declared index h
  have hhint : (declaration setting declared index b).hint =
      (declaration setting declared index a).hint := by
    show (b.statement.leadingComment.bind _).map _ = _
    rw [h.alike.leadingComment]
    rfl
  have hname : Naming.suggested? (declaration setting declared index b).name =
      Naming.suggested? (declaration setting declared index a).name := by
    show Naming.suggested?
      (b.statement.declaredName (declaration setting declared index b).kind) = _
    rw [hkind]
    exact h.alike.suggested? _
  obtain ⟨c, hc⟩ := classify_declaration setting declared index a
  have hb := Declaration.classify_congr hname hkind h.scope hhint hc
  exact (Declaration.placement_placed hc).trans (Declaration.placement_placed hb).symm

theorem read_alike (h : Entry.Repositioned a b) :
    (read setting declared index a).Alike (read setting declared index b) := by
  refine ⟨?_, ?_, ?_, ?_, ?_, placement_read setting declared index h⟩
  all_goals rw [toDeclaration_read, toDeclaration_read]
  · rfl
  · exact (kind_declaration setting declared index h).symm
  · exact h.scope.symm
  · exact h.alike.boundNames.symm
  · show a.statement.reads.filter _ = b.statement.reads.filter _
    rw [h.alike.reads, h.alike.boundNames]

theorem read_repositioned (h : Entry.Repositioned a b) :
    Reread (read setting declared index a) (read setting declared index b) := by
  refine ⟨read_alike setting declared index h, ?_, ?_⟩
  · rw [toDeclaration_read, toDeclaration_read]
    intro hline
    show a.statement.declaredName (declaration setting declared index a).kind =
      b.statement.declaredName (declaration setting declared index b).kind
    rw [kind_declaration setting declared index h]
    refine (h.alike.declaredName fun hn hk => hline ?_).symm
    exact Bool.and_eq_true_iff.2 ⟨hn, by rw [hk]; rfl⟩
  · rw [toDeclaration_read]
    intro hn
    exact Statement.boundNames_of_nameless (Bool.and_eq_true_iff.1 hn).1

end

theorem Reread.matches {options : Options} {d e : Classified} (h : Reread d e)
    (hline : d.ComparedByLine options → e.statement.span.line = d.statement.span.line) :
    d.Matches options e := by
  refine ⟨h.toAlike, ?_⟩
  by_cases hn : d.isNamedByLine = true
  · by_cases hs : ∃ place, d.section? = some place ∧ options.Sorts place
    · exact Or.inl (h.name fun _ => hline ⟨hn, hs⟩)
    · exact Or.inr ⟨h.nameless hn, fun place hp hsorts => hs ⟨place, hp, hsorts⟩⟩
  · exact Or.inl (h.name fun hn' => absurd hn' hn)

variable {unit v : SourceUnit} {k : Nat}

theorem parts_repositioned (h : unit.Repositioned v) {before after : List Statement}
    {component : Statement} (hp : Parts unit before component after) :
    ∃ before' component' after', Parts v before' component' after' ∧
      List.Forall₂ Statement.Repositioned before before' ∧ component.Repositioned component' ∧
      List.Forall₂ Statement.Repositioned after after' := by
  have hall := h.statements
  rw [hp.eq] at hall
  obtain ⟨before', component', after', hv, hb, hc, ha⟩ := Fix.forall₂_append_cons hall
  refine ⟨before', component', after', ⟨hv, hc.alike.isComponent.trans hp.isComponent, ?_⟩,
    hb, hc, ha⟩
  have hmap : before'.map (·.isComponent) = before.map (·.isComponent) :=
    (map_eq_of_forall₂ (hb.imp fun _ _ hst => hst.alike.isComponent.symm)).symm
  intro t ht
  obtain ⟨s, hs, heq⟩ := List.mem_map.1 (hmap ▸ List.mem_map_of_mem ht)
  rw [← heq]
  exact hp.first s hs

/-- The component of the repositioned unit stands at the same index, and every statement is read as
it was. -/
theorem reading_repositioned (h : unit.Repositioned v) (hc : unit.componentIndex? = some k)
    (propsNames : List String) : v.componentIndex? = some k ∧
      List.Forall₂ Reread (reading propsNames unit k) (reading propsNames v k) := by
  obtain ⟨before, component, after, rfl, hp⟩ := exists_parts hc
  obtain ⟨before', component', after', hp', hb, hst, ha⟩ := parts_repositioned h hp
  have hlen : before.length = before'.length := hb.length_eq
  have hentries : List.Forall₂ Entry.Repositioned (entries unit before.length)
      (entries v before'.length) := by
    rw [entries_eq hp.eq, entries_eq hp'.eq]
    refine List.rel_append (moduleEntry_repositioned hb) (.cons ⟨hst.alike, rfl, rfl, rfl⟩ ?_)
    obtain ⟨-, hbody⟩ := hst
    exact List.rel_append (bodyEntries_repositioned hbody) (moduleEntry_repositioned ha)
  have hdeclared : (entries unit before.length).flatMap (·.statement.boundNames) =
      (entries v before'.length).flatMap (·.statement.boundNames) := by
    rw [List.flatMap_def, List.flatMap_def]
    exact congrArg List.flatten
      (map_eq_of_forall₂ (hentries.imp fun _ _ he => he.alike.boundNames.symm))
  have hsetting : settingOf propsNames component' = settingOf propsNames component := by
    unfold settingOf
    rw [hst.alike.name?]
  refine ⟨hlen ▸ hp'.componentIndex?, ?_⟩
  nth_rewrite 2 [hlen]
  rw [reading_eq hp.eq, reading_eq hp'.eq, hsetting, ← hdeclared]
  exact numbered_forall₂ hentries (fun i _ _ he => read_repositioned _ _ i he) 0

end Outline

/-- Units that differ in positions only are arranged alike, if they agree on the lines of the
statements that are compared by them. -/
theorem arrangement_ignores_positions {unit v : SourceUnit} {k : Nat} (h : unit.Repositioned v)
    (hc : unit.componentIndex? = some k) (options : Options) :
    ∃ ds es, unit.Declares options ds ∧ v.Declares options es ∧
      ((∀ p ∈ ds.zip es, p.1.ComparedByLine options →
          p.2.statement.span.line = p.1.statement.span.line) →
        (validate options ds).arranged.map (·.index) =
            (validate options es).arranged.map (·.index) ∧
          (validate options ds).resorted = (validate options es).resorted ∧
          (validate options ds).cyclic = (validate options es).cyclic) := by
  obtain ⟨hv, hreread⟩ := reading_repositioned h hc options.propsNames
  refine ⟨_, _, declares_reading hc options, declares_reading hv options, fun hlines => ?_⟩
  obtain ⟨hlen, hpairs⟩ := List.forall₂_iff_zip.1 hreread
  have hmatches : List.Forall₂ (Classified.Matches options)
      (reading options.propsNames unit k) (reading options.propsNames v k) :=
    List.forall₂_iff_zip.2 ⟨hlen, fun hpair => (hpairs hpair).matches (hlines _ hpair)⟩
  have hn := numbered_reading hc options.propsNames
  exact ⟨map_index_of_matches (arranged_matches hmatches hn), resorted_eq hmatches hn,
    cyclic_eq hmatches hn⟩

/-- Two functions without names before the component, and in it an expression without one. -/
def SourceUnit.nameless (offset first second : Int) : SourceUnit where
  name := "a"
  statements :=
    [{ kind := .functionStmt
       span := { start := offset, stop := offset + 10, line := first } },
     { kind := .functionStmt
       span := { start := offset + 10, stop := offset + 20, line := second } },
     { kind := .functionStmt, span := { start := offset + 20, stop := offset + 40 }
       names := ["App"]
       body := some [{ kind := .expressionStmt
                       span := { start := offset + 30, stop := offset + 35, line := offset } }] }]

theorem SourceUnit.nameless_repositioned (offset first second offset' first' second' : Int) :
    (nameless offset first second).Repositioned (nameless offset' first' second') := by
  have hleaf : ∀ {s t : Statement}, s.Alike t → s.bodyStatements = [] →
      t.bodyStatements = [] → s.Repositioned t := by
    intro s t hst hs ht
    exact ⟨hst, by rw [hs, ht]; exact .nil⟩
  exact ⟨rfl, .cons (hleaf ⟨rfl, rfl⟩ rfl rfl) (.cons (hleaf ⟨rfl, rfl⟩ rfl rfl)
    (.cons ⟨⟨rfl, rfl⟩, .cons (hleaf ⟨rfl, rfl⟩ rfl rfl) .nil⟩ .nil))⟩

/-- The expression is named by another line, but it has no section. -/
theorem nameless_arranged_alike : ∃ ds es,
    (SourceUnit.nameless 0 9 10).Declares .standard ds ∧
      (SourceUnit.nameless 40 9 10).Declares .standard es ∧
      (validate .standard ds).arranged.map (·.index) = [1, 0, 2, 3] ∧
      (validate .standard es).arranged.map (·.index) = [1, 0, 2, 3] ∧
      (validate .standard es).resorted = [.constantsEnums] ∧
      (validate .standard es).cyclic = [] := by
  have hc : (SourceUnit.nameless 0 9 10).componentIndex? = some 2 := by decide
  have hv : (SourceUnit.nameless 40 9 10).componentIndex? = some 2 := by decide
  obtain ⟨ds, es, hds, hes, hsame⟩ := arrangement_ignores_positions
    (SourceUnit.nameless_repositioned 0 9 10 40 9 10) hc .standard
  have hds' := (SourceUnit.declares_iff_eq hc).1 hds
  have hes' := (SourceUnit.declares_iff_eq hv).1 hes
  have hlines : ∀ p ∈ ds.zip es, p.1.ComparedByLine .standard →
      p.2.statement.span.line = p.1.statement.span.line := by
    have hlines' : ∀ p ∈ ds.zip es, p.1.section?.isSome = true →
        p.2.statement.span.line = p.1.statement.span.line := by
      rw [hds', hes']
      decide +kernel
    rintro p hp ⟨-, place, hplace, -⟩
    exact hlines' p hp (by rw [hplace]; rfl)
  obtain ⟨horder, hresorted, hcyclic⟩ := hsame hlines
  have horder' : (validate .standard ds).arranged.map (·.index) = [1, 0, 2, 3] := by
    rw [hds']
    decide +kernel
  have hresorted' : (validate .standard ds).resorted = [.constantsEnums] := by
    rw [hds']
    decide +kernel
  have hcyclic' : (validate .standard ds).cyclic = [] := by
    rw [hds']
    decide +kernel
  exact ⟨ds, es, hds, hes, horder', horder ▸ horder', hresorted ▸ hresorted', hcyclic ▸ hcyclic'⟩

/-- Line 10 comes before line 9 in the alphabet, but line 1 before line 2. -/
theorem nameless_arranged_by_line :
    (SourceUnit.nameless 0 1 2).Repositioned (.nameless 0 9 10) ∧ ∃ ds es,
      (SourceUnit.nameless 0 1 2).Declares .standard ds ∧
      (SourceUnit.nameless 0 9 10).Declares .standard es ∧
      (validate .standard ds).arranged.map (·.index) = [0, 1, 2, 3] ∧
      (validate .standard es).arranged.map (·.index) = [1, 0, 2, 3] ∧
      (validate .standard ds).resorted = [] ∧
      (validate .standard es).resorted = [.constantsEnums] := by
  have hc : (SourceUnit.nameless 0 1 2).componentIndex? = some 2 := by decide
  have hv : (SourceUnit.nameless 0 9 10).componentIndex? = some 2 := by decide
  refine ⟨SourceUnit.nameless_repositioned 0 1 2 0 9 10, _, _, declares_reading hc .standard,
    declares_reading hv .standard, ?_, ?_, ?_, ?_⟩
  · decide +kernel
  · decide +kernel
  · decide +kernel
  · decide +kernel

end ComponentLint
