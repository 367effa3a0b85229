import ComponentLint.Proofs.Renumbered
/-
  Declarations without a section stay behind the one they follow. What stands right behind a
  declaration of a section, up to the next one, is what its block holds
  (`followedBy_iff_mem_blocks`), and what leads a container is the head that is cut off before its
  blocks (`ledBy_iff`). Arranging a container keeps its head and permutes its blocks, so both are
  the same before and after.
-/

namespace ComponentLint

/-- The list begins with these declarations, none of which has a section, and ends behind them or
goes on with one that has. -/
def LedBy (l front : List Classified) : Prop :=
  ∃ rest, l = front ++ rest ∧ (∀ d ∈ front, d.section? = none) ∧ ∀ d ∈ rest.head?, d.section? ≠ none

/-- These are the declarations without a section right behind the given one, up to the next that has
one. -/
def FollowedBy (l : List Classified) (d : Classified) (followers : List Classified) : Prop :=
  ∃ before rest, l = before ++ d :: rest ∧ LedBy rest followers

section

variable {l front followers : List Classified} {d : Classified} {place : Section}

theorem ledBy_append (hf : ∀ d ∈ front, d.section? = none) {bs : List Block}
    (hb : ∀ b ∈ bs, b.WellFormed) : LedBy (front ++ bs.flatMap Block.items) front := by
  refine ⟨_, rfl, hf, ?_⟩
  cases bs with
  | nil => simp
  | cons b bs =>
    rw [List.flatMap_cons, Block.items, List.cons_append, List.head?_cons]
    intro d hd
    rw [← Option.mem_some.1 hd, (hb b List.mem_cons_self).anchor]
    exact Option.some_ne_none _

theorem ledBy_iff : LedBy l front ↔ front = (blocks l).1 := by
  constructor
  · rintro ⟨rest, rfl, hfront, hrest⟩
    have hnil : (blocks rest).1 = [] := by
      cases rest with
      | nil => rfl
      | cons d rest =>
        obtain ⟨place, hplace⟩ := Option.ne_none_iff_exists'.1 (hrest d rfl)
        rw [blocks, hplace]
    rw [blocks_of_unclassified hfront, hnil, List.append_nil]
  · rintro rfl
    obtain ⟨hflat, hhead, hwf⟩ := blocks_spec l
    have hled := ledBy_append hhead hwf
    rwa [hflat] at hled

theorem mem_blocks_append (hs : d.section? = some place) (before rest : List Classified) :
    ⟨place, d, (blocks rest).1⟩ ∈ (blocks (before ++ d :: rest)).2 := by
  induction before with
  | nil =>
    rw [List.nil_append, blocks, hs]
    exact List.mem_cons_self
  | cons e before ih =>
    rw [List.cons_append, blocks]
    cases e.section? with
    | none => exact ih
    | some _ => exact List.mem_cons_of_mem _ ih

theorem followedBy_iff_mem_blocks (hs : d.section? = some place) :
    FollowedBy l d followers ↔ ⟨place, d, followers⟩ ∈ (blocks l).2 := by
  constructor
  · rintro ⟨before, rest, rfl, hrest⟩
    rw [ledBy_iff.1 hrest]
    exact mem_blocks_append hs before rest
  · intro hmem
    obtain ⟨hflat, hhead, hwf⟩ := blocks_spec l
    obtain ⟨bs₁, bs₂, heq⟩ := List.append_of_mem hmem
    rw [heq] at hflat hwf
    have hled : LedBy (followers ++ bs₂.flatMap Block.items) followers :=
      ledBy_append (hwf ⟨place, d, followers⟩ (by simp)).followers fun b hb => hwf b (by simp [hb])
    exact ⟨(blocks l).1 ++ bs₁.flatMap Block.items, _, hflat.symm.trans (by simp [Block.items]), hled⟩

/-- A declaration of a container has one block. -/
theorem block_unique (h : Numbered l) {b c : Block} (hb : b ∈ (blocks l).2) (hc : c ∈ (blocks l).2)
    (he : b.anchor = c.anchor) : b = c := by
  obtain ⟨-, -, hwf⟩ := blocks_spec l
  have hplace : c.place = b.place := by
    have hanchor := (hwf c hc).anchor
    rw [← he, (hwf b hb).anchor] at hanchor
    exact (Option.some.inj hanchor).symm
  refine List.inj_on_of_nodup_map (sectionBlocks_filter h (List.Sublist.refl l) b.place).nodup
    (List.mem_filter.2 ⟨hb, by simp⟩) (List.mem_filter.2 ⟨hc, by simp [hplace]⟩) ?_
  rw [he]

theorem followedBy_iff_eq (h : Numbered l) (hs : d.section? ≠ none)
    (hf : FollowedBy l d followers) {others : List Classified} :
    FollowedBy l d others ↔ others = followers := by
  obtain ⟨place, hplace⟩ := Option.ne_none_iff_exists'.1 hs
  refine ⟨fun ho => ?_, fun he => he ▸ hf⟩
  rw [followedBy_iff_mem_blocks hplace] at ho hf
  exact congrArg (·.followers) (block_unique h ho hf rfl)

end

section

variable {ds members : List Classified} (order : SectionOrder) (resorted : List Section)
  (h : Numbered ds) (hm : members.Sublist ds)

include h hm

/-- Arranging a container keeps its head and its blocks. -/
theorem blocks_arrangeContainer :
    blocks (arrangeContainer order resorted (sectionGraphs ds) members) =
      ((blocks members).1, arrangedBlocks order resorted ds (blocks members).2) := by
  rw [arrangeContainer_eq]
  exact blocks_append (blocks_spec members).2.1 (wellFormed_arrangedBlocks h hm)

theorem ledBy_arrangeContainer_iff {front : List Classified} :
    LedBy (arrangeContainer order resorted (sectionGraphs ds) members) front ↔
      LedBy members front := by
  rw [ledBy_iff, ledBy_iff, blocks_arrangeContainer order resorted h hm]

theorem followedBy_arrangeContainer_iff {d : Classified} (hs : d.section? ≠ none)
    {followers : List Classified} :
    FollowedBy (arrangeContainer order resorted (sectionGraphs ds) members) d followers ↔
      FollowedBy members d followers := by
  obtain ⟨place, hplace⟩ := Option.ne_none_iff_exists'.1 hs
  rw [followedBy_iff_mem_blocks hplace, followedBy_iff_mem_blocks hplace,
    blocks_arrangeContainer order resorted h hm]
  exact (arrangedBlocks_perm order resorted h hm).mem_iff

end

/-- However a unit is arranged, each of its containers begins with the declarations without a
section with which it began, and each declaration of a section has right behind it, up to the next
one, those without a section that it had there. -/
theorem unclassified_follow (extraction options : Options) (unit : SourceUnit)
    (ds : List Classified) (resorted : List Section) (h : unit.Declares extraction ds)
    (scope : Scope) :
    let source := inScope scope ds
    let arranged := inScope scope (arrange options.order resorted (sectionGraphs ds) ds)
    arranged.Perm source ∧ (∃ front, LedBy source front ∧ LedBy arranged front) ∧
      ∀ d ∈ source, d.section? ≠ none → ∃ followers, ∀ others,
        (FollowedBy source d others ↔ others = followers) ∧
          (FollowedBy arranged d others ↔ others = followers) := by
  intro source arranged
  obtain ⟨before, component, body, after, hl⟩ := h.exists_layout
  have hn := h.numbered
  have hsub := inScope_sublist scope ds
  have harranged : arranged =
      arrangeContainer options.order resorted (sectionGraphs ds) source :=
    inScope_arrange hl hn options.order resorted scope
  rw [harranged]
  refine ⟨arrangeContainer_perm _ _ hn hsub, ⟨_, ledBy_iff.2 rfl, ?_⟩, fun d hd hs => ?_⟩
  · exact (ledBy_arrangeContainer_iff _ _ hn hsub).2 (ledBy_iff.2 rfl)
  · obtain ⟨place, hplace⟩ := Option.ne_none_iff_exists'.1 hs
    obtain ⟨front, rest, heq⟩ := List.append_of_mem hd
    have hf : FollowedBy source d (blocks rest).1 := ⟨front, rest, heq, ledBy_iff.2 rfl⟩
    refine ⟨_, fun others => ⟨followedBy_iff_eq (hn.sublist hsub) hs hf, ?_⟩⟩
    rw [followedBy_arrangeContainer_iff _ _ hn hsub hs]
    exact followedBy_iff_eq (hn.sublist hsub) hs hf

/-- Calls at the head of the module and of the body, and behind declarations that are not in
order. -/
def SourceUnit.interspersed : SourceUnit :=
  let call (name : String) : Statement :=
    { kind := .expressionStmt, span := { start := 0, stop := 0 }, names := [name] }
  let binding (name : String) (callee : Option String) (value : Option ValueShape) : Statement :=
    { kind := .variableStmt, span := { start := 0, stop := 0 }, names := [name], callee, value }
  { name := "Interspersed"
    statements :=
      [call "first", binding "limit" none none, call "afterLimit", call "stillAfterLimit",
       { kind := .functionStmt, span := { start := 0, stop := 0 }, names := ["App"]
         body := some
          [call "firstInside", binding "f" none (some .function), call "afterF",
           binding "b" (some "useState") none, binding "a" (some "useState") none,
           call "afterA"] },
       call "afterApp",
       { kind := .importStmt, span := { start := 0, stop := 0 }, moduleName := some "react" },
       call "afterImport"] }

/-- The import, the constant and the component take their calls along, and so do the states when
they are sorted. -/
theorem interspersed_follow : ∃ ds, SourceUnit.interspersed.Declares .standard ds ∧
    (arrange .canonical [.state] (sectionGraphs ds) ds).map (·.name) =
      ["first", "react", "afterImport", "limit", "afterLimit", "stillAfterLimit", "App",
       "firstInside", "a", "afterA", "b", "f", "afterF", "afterApp"] ∧
    ∃ d ∈ inScope .component ds, d.name = "a" ∧ ∃ followers, followers.map (·.name) = ["afterA"] ∧
      FollowedBy (inScope .component ds) d followers ∧
      FollowedBy (inScope .component (arrange .canonical [.state] (sectionGraphs ds) ds)) d
        followers := by
  have hc : SourceUnit.interspersed.componentIndex? = some 4 := by decide
  have hds := declares_reading hc .standard
  obtain ⟨-, -, hfollow⟩ := unclassified_follow .standard .standard .interspersed _ [.state] hds
    .component
  obtain ⟨followers, hiff⟩ := hfollow _ (List.get_mem _ ⟨4, by decide +kernel⟩) (by decide +kernel)
  have hsource : FollowedBy (inScope .component (Outline.reading ["Props"] .interspersed 4)) _ _ :=
    ⟨_, _, (List.take_append_drop 4 _).symm.trans
      (congrArg _ (List.drop_eq_getElem_cons (by decide +kernel))), ledBy_iff.2 rfl⟩
  have harranged := (hiff _).2.2 ((hiff _).1.1 hsource)
  exact ⟨_, hds, by decide +kernel, _, List.get_mem _ _, by decide +kernel, _, by decide +kernel,
    hsource, harranged⟩

end ComponentLint
