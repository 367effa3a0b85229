import ComponentLint.Proofs.Dependencies
/-
  Where the props types stand after a fix. Sorting puts them behind the other types of their
  container, but what is read comes before what reads it, and only the first props type of the unit
  is compared with the end of its container. So it is not the last there when another type reads it,
  when the container has another props type, or when the types were left as they were and the move
  of a container brought it to the front (`PropsHindered`). A fixed unit has a props type reported
  exactly then; if there is one props type only, that is when the types are sorted and another type
  of its container reads it (`props_last_after_fix`).
-/

namespace ComponentLint

open Profile Validation

/-- The props type that is compared with the end of its container. -/
def firstProps? (ds : List Classified) : Option Classified :=
  (sectionMembers ds .typesInterfaces).find? (·.isPropsType)

/-- What keeps a fix from leaving a props type the last of its container. -/
inductive PropsHindered (options : Options) (ds : List Classified) (d : Classified) : Prop where
  /-- Another type of the container reads it. -/
  | read (e : Classified) (member : e ∈ sectionMembers ds .typesInterfaces)
      (scope : e.scope = d.scope) (sorted : .typesInterfaces ∈ (validate options ds).resorted)
      (reads : (SectionGraph.of ds .typesInterfaces).dependsOn e.index d.index = true)
  /-- The container has another props type. -/
  | beside (e : Classified) (member : e ∈ sectionMembers ds .typesInterfaces)
      (scope : e.scope = d.scope) (sorted : .typesInterfaces ∈ (validate options ds).resorted)
      (props : e.isPropsType = true) (other : e.index ≠ d.index)
  /-- The types are left as they were: one stands behind it, and it was not the first props type, as
  the other container has one. -/
  | elsewhere (e : Classified) (member : e ∈ sectionMembers ds .typesInterfaces)
      (scope : e.scope ≠ d.scope) (kept : .typesInterfaces ∉ (validate options ds).resorted)
      (props : e.isPropsType = true) (behind : Classified)
      (order : [d, behind].Sublist (inScope d.scope (sectionMembers ds .typesInterfaces)))

/-- A sorted section goes on behind a props type with another or with one that reads it. -/
theorem Profile.Sorted.props_or_readsFrom {p q : Profile} {rest : List Profile}
    (h : Sorted (p :: q :: rest)) (hp : p.isPropsType = true) :
    q.isPropsType = true ∨ q.ReadsFrom p := by
  by_contra hx
  obtain ⟨hq, hr⟩ := not_or.1 hx
  exact h.not_before hr (Or.inl ⟨Bool.not_eq_true _ ▸ hq, hp⟩)

theorem pair_sublist_of_mem {α : Type} (l₁ : List α) {l₂ : List α} (a : α) {b : α} (hb : b ∈ l₂) :
    [a, b].Sublist (l₁ ++ a :: l₂) :=
  ((List.singleton_sublist.2 hb).cons_cons a).trans (List.sublist_append_right _ _)

/-- What comes after an element comes behind its first occurrence. -/
theorem mem_of_pair_sublist {α : Type} {l₁ l₂ : List α} {a b : α} (ha : a ∉ l₁)
    (h : [a, b].Sublist (l₁ ++ a :: l₂)) : b ∈ l₂ := by
  induction l₁ with
  | nil => exact List.singleton_sublist.1 (List.cons_sublist_cons.1 h)
  | cons x l₁ ih =>
    obtain ⟨hne, ha⟩ := not_or.1 (mt List.mem_cons.2 ha)
    exact ih ha (h.of_cons_of_ne hne)

section

variable {ds : List Classified} {d : Classified}

theorem firstProps?_eq_some_iff :
    firstProps? ds = some d ↔ ∃ l₁ l₂, sectionMembers ds .typesInterfaces = l₁ ++ d :: l₂ ∧
      (∀ e ∈ l₁, e.isPropsType = false) ∧ d.isPropsType = true := by
  unfold firstProps?
  rw [List.find?_eq_some_iff_append]
  simp only [Bool.not_eq_true']
  constructor
  · intro hx
    obtain ⟨hprops, l₁, l₂, heq, hbefore⟩ := hx
    exact ⟨l₁, l₂, heq, hbefore, hprops⟩
  · intro hx
    obtain ⟨l₁, l₂, heq, hbefore, hprops⟩ := hx
    exact ⟨hprops, l₁, l₂, heq, hbefore⟩

/-- The first props type is not the last of its container when a type of that stands behind it. -/
theorem propsNotLast?_eq_some_iff_behind (hn : Numbered ds) :
    Rule.propsNotLast? ds = some d ↔ firstProps? ds = some d ∧
      ∃ e, e.scope = d.scope ∧ [d, e].Sublist (sectionMembers ds .typesInterfaces) := by
  rw [propsNotLast?_eq_some_iff hn, firstProps?_eq_some_iff]
  constructor
  · intro hx
    obtain ⟨l₁, l₂, heq, hbefore, hprops, hne⟩ := hx
    obtain ⟨e, he⟩ := List.exists_mem_of_ne_nil _ hne
    obtain ⟨he, hscope⟩ := List.mem_filter.1 he
    refine ⟨⟨l₁, l₂, heq, hbefore, hprops⟩, e, by simpa using hscope, ?_⟩
    rw [heq]
    exact pair_sublist_of_mem l₁ d he
  · intro hx
    obtain ⟨⟨l₁, l₂, heq, hbefore, hprops⟩, e, hscope, hpair⟩ := hx
    have hd : d ∉ l₁ := by
      intro hd
      rw [hbefore d hd] at hprops
      exact Bool.noConfusion hprops
    rw [heq] at hpair
    have he := mem_of_pair_sublist hd hpair
    refine ⟨l₁, l₂, heq, hbefore, hprops, List.ne_nil_of_mem (a := e) ?_⟩
    exact List.mem_filter.2 ⟨he, by simp [hscope]⟩

end

section

variable {ds before body after : List Classified} {component d : Classified} {options : Options}

theorem mem_sectionMembers_arranged (options : Options)
    (hl : Layout ds before component body after) (hn : Numbered ds) {place : Section} :
    d ∈ sectionMembers (validate options ds).arranged place ↔ d ∈ sectionMembers ds place :=
  mem_sectionMembers_arrange hl hn options.order

/-- New numbers do not change which props type is found not to be the last. -/
theorem propsNotLast?_reordered (hl : Layout ds before component body after) (hn : Numbered ds)
    {d' : Classified} (h : Rule.propsNotLast? (reordered options ds) = some d') :
    ∃ d, Rule.propsNotLast? (validate options ds).arranged = some d ∧
      d' = d.numbered (positionIn (validate options ds).arranged d) := by
  have hmembers : sectionMembers (reordered options ds) .typesInterfaces =
      (sectionMembers (validate options ds).arranged .typesInterfaces).map
        fun d => d.numbered (positionIn (validate options ds).arranged d) := by
    rw [reordered_eq_map hl hn]
    exact List.filter_map
  have hnumbered : Numbered (reordered options ds) := numbered_renumber _
  obtain ⟨l₁, l₂, heq, hbefore, hprops, hne⟩ := (propsNotLast?_eq_some_iff hnumbered).1 h
  rw [hmembers] at heq
  obtain ⟨m₁, m, hm, rfl, hrest⟩ := List.map_eq_append_iff.1 heq
  obtain ⟨d, m₂, rfl, rfl, rfl⟩ := List.map_eq_cons_iff.1 hrest
  have hbehind : inScope d.scope m₂ ≠ [] := by
    intro hnil
    refine hne ?_
    unfold inScope at hnil ⊢
    rw [List.filter_map]
    exact congrArg _ hnil
  have hn' := numbered_arrange hl hn options.order (validate options ds).resorted
  exact ⟨d, (propsNotLast?_eq_some_iff hn').2
    ⟨m₁, m₂, hm, List.forall_mem_map.1 hbefore, hprops, hbehind⟩, rfl⟩

/-- What stands right behind the first props type of a sorted section hinders it. -/
theorem propsHindered_of_sorted (hl : Layout ds before component body after) (hn : Numbered ds)
    (hc : ¬ Cyclic .typesInterfaces (ds.map Classified.profile))
    (hr : .typesInterfaces ∈ (validate options ds).resorted)
    (h : Rule.propsNotLast? (validate options ds).arranged = some d) :
    PropsHindered options ds d := by
  have hn' : Numbered (validate options ds).arranged := numbered_arrange hl hn options.order _
  obtain ⟨l₁, l₂, heq, -, hprops, hne⟩ := (propsNotLast?_eq_some_iff hn').1 h
  obtain ⟨e, rest, hbehind⟩ := List.exists_cons_of_ne_nil hne
  have hsorted : Sorted (d.profile :: e.profile :: rest.map Classified.profile) := by
    have hs : Sorted ((inScope d.scope (sectionMembers (validate options ds).arranged
        .typesInterfaces)).map Classified.profile) :=
      sorted_arrange hl hn options.order ⟨hr, hc⟩ d.scope
    rw [heq, inScope_append_cons, hbehind, List.map_append] at hs
    exact hs.of_append
  have he : e ∈ inScope d.scope l₂ := by simp [hbehind]
  obtain ⟨hel, hscope⟩ := List.mem_filter.1 he
  have hscope : e.scope = d.scope := by simpa using hscope
  have hmem : ∀ x ∈ d :: l₂, x ∈ sectionMembers ds .typesInterfaces := by
    intro x hx
    refine (mem_sectionMembers_arranged options hl hn).1 ?_
    rw [heq]
    exact List.mem_append_right _ hx
  have hem := hmem e (List.mem_cons_of_mem _ hel)
  rcases hsorted.props_or_readsFrom hprops with hp | hread
  · have hnum := hn'.sublist (sectionMembers_sublist _ .typesInterfaces)
    rw [heq] at hnum
    exact .beside e hem hscope hr hp (hnum.index_ne (List.mem_append_right _ hel))
  · exact .read e hem hscope hr ((dependsOn_of hn hem (hmem d (by simp))).2 hread)

/-- If the types are not sorted, there is a props type in the other container. -/
theorem propsHindered_of_kept (hl : Layout ds before component body after) (hn : Numbered ds)
    (hr : .typesInterfaces ∉ (validate options ds).resorted)
    (h : Rule.propsNotLast? (validate options ds).arranged = some d) :
    PropsHindered options ds d := by
  have hn' : Numbered (validate options ds).arranged := numbered_arrange hl hn options.order _
  obtain ⟨-, behind, hbehind, hpair⟩ := (propsNotLast?_eq_some_iff_behind hn').1 h
  have horder : [d, behind].Sublist (inScope d.scope (sectionMembers ds .typesInterfaces)) := by
    have hself : inScope d.scope [d, behind] = [d, behind] := inScope_eq_self (by simp [hbehind])
    rw [← inScope_sectionMembers_arrange hl hn options.order (fun hs => hr hs.1), ← hself]
    exact hpair.filter _
  by_contra hnot
  have hscope : ∀ p ∈ ofSection .typesInterfaces (ds.map Classified.profile),
      p.isPropsType = true → p.scope = d.scope := by
    rw [← map_profile_sectionMembers]
    intro p hp hprops
    obtain ⟨e, he, rfl⟩ := List.mem_map.1 hp
    by_contra hscope
    exact hnot (.elsewhere e he hscope hr hprops behind horder)
  have htogether : PropsTogether (ds.map Classified.profile) := fun p hp q hq hpp hqp =>
    (hscope p hp hpp).trans (hscope q hq hqp).symm
  exact not_propsNotLast_arranged hl hn options htogether hr
    ((isSome_propsNotLast? hn').1 (by rw [h]; rfl))

/-- A type that hinders the first props type comes to stand behind it, in its container. -/
theorem exists_behind_of_propsHindered (hl : Layout ds before component body after)
    (hn : Numbered ds) (hc : ¬ Cyclic .typesInterfaces (ds.map Classified.profile))
    (hfirst : firstProps? (validate options ds).arranged = some d)
    (h : PropsHindered options ds d) :
    ∃ e, e.scope = d.scope ∧
      [d, e].Sublist (sectionMembers (validate options ds).arranged .typesInterfaces) := by
  obtain ⟨l₁, l₂, heq, hbefore, hprops⟩ := firstProps?_eq_some_iff.1 hfirst
  have hd : d ∈ sectionMembers ds .typesInterfaces := by
    refine (mem_sectionMembers_arranged options hl hn).1 ?_
    rw [heq]
    simp
  cases h with
  | read e he hscope hr hread =>
    exact ⟨e, hscope, sublist_arrange_of_isSorted hl hn options.order ⟨hr, hc⟩ he hd hscope
      ((dependsOn_of hn he hd).1 hread)⟩
  | beside e he hscope hr hep hne =>
    refine ⟨e, hscope, ?_⟩
    have hmem := (mem_sectionMembers_arranged options hl hn).2 he
    rw [heq] at hmem ⊢
    have hel : e ∈ l₂ := by
      rcases List.mem_append.1 hmem with hx | hx
      · rw [hbefore e hx] at hep
        exact Bool.noConfusion hep
      · exact (List.mem_cons.1 hx).resolve_left fun hx => hne (hx ▸ rfl)
    exact pair_sublist_of_mem l₁ d hel
  | elsewhere _ _ _ hr _ behind horder =>
    have hscope := (List.mem_filter.1 (horder.subset (by simp : behind ∈ [d, behind]))).2
    rw [← inScope_sectionMembers_arrange hl hn options.order (fun hs => hr hs.1)] at horder
    exact ⟨behind, by simpa using hscope, horder.trans (inScope_sublist _ _)⟩

/-- In the order of a fix, the first props type is not the last of its container exactly when it is
hindered. -/
theorem propsNotLast?_arranged_iff (options : Options)
    (hl : Layout ds before component body after) (hn : Numbered ds)
    (hc : ¬ Cyclic .typesInterfaces (ds.map Classified.profile)) :
    Rule.propsNotLast? (validate options ds).arranged = some d ↔
      firstProps? (validate options ds).arranged = some d ∧ PropsHindered options ds d := by
  have hn' : Numbered (validate options ds).arranged := numbered_arrange hl hn options.order _
  constructor
  · intro h
    refine ⟨((propsNotLast?_eq_some_iff_behind hn').1 h).1, ?_⟩
    by_cases hr : .typesInterfaces ∈ (validate options ds).resorted
    · exact propsHindered_of_sorted hl hn hc hr h
    · exact propsHindered_of_kept hl hn hr h
  · intro hx
    obtain ⟨hfirst, h⟩ := hx
    exact (propsNotLast?_eq_some_iff_behind hn').2
      ⟨hfirst, exists_behind_of_propsHindered hl hn hc hfirst h⟩

theorem exists_props_violation_iff (options : Options)
    (hl : Layout ds before component body after) (hn : Numbered ds) :
    (∃ v ∈ (validate options (reordered options ds)).violations,
      v.kind = .propsInterfacePosition) ↔
        ∃ d, Rule.propsNotLast? (validate options ds).arranged = some d := by
  have hn' : Numbered (validate options ds).arranged := numbered_arrange hl hn options.order _
  have hagain : (Rule.propsNotLast? (reordered options ds)).isSome = true ↔
      (Rule.propsNotLast? (validate options ds).arranged).isSome = true := by
    rw [isSome_propsNotLast? hn', reordered, isSome_propsNotLast? (numbered_renumber _),
      map_profile_renumber]
  rw [← Option.isSome_iff_exists, ← hagain, Option.isSome_iff_exists]
  constructor
  · intro hx
    obtain ⟨v, hv, hk⟩ := hx
    obtain ⟨d', hd', -⟩ := mem_violations_props_iff.1 ⟨hv, hk⟩
    exact ⟨d', hd'⟩
  · intro hx
    obtain ⟨d', hd'⟩ := hx
    obtain ⟨hv, hk⟩ := mem_violations_props_iff.2 ⟨d', hd', rfl⟩
    exact ⟨_, hv, hk⟩

theorem firstProps?_of_only (hn : Numbered ds) (hd : d ∈ sectionMembers ds .typesInterfaces)
    (hprops : d.isPropsType = true)
    (honly : ∀ e ∈ sectionMembers ds .typesInterfaces, e.isPropsType = true → e.index = d.index) :
    firstProps? ds = some d := by
  have hnum := hn.sublist (sectionMembers_sublist ds .typesInterfaces)
  have hsome : (firstProps? ds).isSome = true := List.find?_isSome.2 ⟨d, hd, hprops⟩
  obtain ⟨e, he⟩ := Option.isSome_iff_exists.1 hsome
  obtain ⟨l₁, l₂, heq, -, hep⟩ := firstProps?_eq_some_iff.1 he
  have hmem : e ∈ sectionMembers ds .typesInterfaces := by
    rw [heq]
    simp
  rw [he, hnum.eq_of_index hmem hd (honly e hmem hep)]

/-- One props type alone is hindered by a type that reads it only. -/
theorem propsHindered_iff_of_only (hn : Numbered ds) (hd : d ∈ sectionMembers ds .typesInterfaces)
    (honly : ∀ e ∈ sectionMembers ds .typesInterfaces, e.isPropsType = true → e.index = d.index) :
    PropsHindered options ds d ↔ .typesInterfaces ∈ (validate options ds).resorted ∧
      ∃ e ∈ sectionMembers ds .typesInterfaces, e.scope = d.scope ∧
        (SectionGraph.of ds .typesInterfaces).dependsOn e.index d.index = true := by
  constructor
  · intro h
    cases h with
    | read e he hscope hr hread => exact ⟨hr, e, he, hscope, hread⟩
    | beside e he _ _ hep hne => exact absurd (honly e he hep) hne
    | elsewhere e he hscope _ hep _ _ =>
      have hnum := hn.sublist (sectionMembers_sublist ds .typesInterfaces)
      rw [hnum.eq_of_index he hd (honly e he hep)] at hscope
      exact absurd rfl hscope
  · intro hx
    obtain ⟨hr, e, he, hscope, hread⟩ := hx
    exact .read e he hscope hr hread

end

/-- After a fix of a unit whose types have no cycle, the first props type alone may be reported, and
it is exactly when it is hindered from being the last of its container. If it is the only one, that
is when the types are sorted and another type of its container reads it. -/
theorem props_last_after_fix (extraction options : Options) (unit : SourceUnit)
    (ds : List Classified) (h : unit.Declares extraction ds)
    (hc : (SectionGraph.of ds .typesInterfaces).isCyclic = false) :
    (∀ v ∈ (validate options (reordered options ds)).violations,
      v.kind = .propsInterfacePosition →
        ∃ d, firstProps? (validate options ds).arranged = some d ∧ PropsHindered options ds d ∧
          v.name = d.name ∧ v.actual = positionIn (validate options ds).arranged d) ∧
    (∀ d, firstProps? (validate options ds).arranged = some d → PropsHindered options ds d →
      ∃ v ∈ (validate options (reordered options ds)).violations,
        v.kind = .propsInterfacePosition) ∧
    ∀ d ∈ sectionMembers ds .typesInterfaces, d.isPropsType = true →
      (∀ e ∈ sectionMembers ds .typesInterfaces, e.isPropsType = true → e.index = d.index) →
      ((∃ v ∈ (validate options (reordered options ds)).violations,
          v.kind = .propsInterfacePosition) ↔
        .typesInterfaces ∈ (validate options ds).resorted ∧
          ∃ e ∈ sectionMembers ds .typesInterfaces, e.scope = d.scope ∧
            (SectionGraph.of ds .typesInterfaces).dependsOn e.index d.index = true) := by
  obtain ⟨before, component, body, after, hl⟩ := h.exists_layout
  have hn := h.numbered
  have hacyclic := not_cyclic_of_isCyclic_eq_false hn hc
  have hreported := exists_props_violation_iff options hl hn
  refine ⟨fun v hv hk => ?_, fun d hfirst hd => ?_, fun d hd hprops honly => ?_⟩
  · obtain ⟨d', hd', rfl⟩ := mem_violations_props_iff.1 ⟨hv, hk⟩
    obtain ⟨d, hd, rfl⟩ := propsNotLast?_reordered hl hn hd'
    obtain ⟨hfirst, hhindered⟩ := (propsNotLast?_arranged_iff options hl hn hacyclic).1 hd
    exact ⟨d, hfirst, hhindered, rfl, rfl⟩
  · exact hreported.2 ⟨d, (propsNotLast?_arranged_iff options hl hn hacyclic).2 ⟨hfirst, hd⟩⟩
  · have hfirst : firstProps? (validate options ds).arranged = some d :=
      firstProps?_of_only (numbered_arrange hl hn options.order _)
        ((mem_sectionMembers_arranged options hl hn).2 hd) hprops
        fun e he => honly e ((mem_sectionMembers_arranged options hl hn).1 he)
    rw [hreported, ← propsHindered_iff_of_only hn hd honly]
    simp only [propsNotLast?_arranged_iff options hl hn hacyclic, hfirst, Option.some.injEq]
    exact exists_eq_left'

/-- A props type before another type, which reads the given names. -/
def SourceUnit.propsFirst (reads : List String) : SourceUnit where
  name := "a"
  statements :=
    [{ kind := .interfaceStmt, span := { start := 0, stop := 10 }, names := ["AppProps"] },
     { kind := .interfaceStmt, span := { start := 10, stop := 20 }, names := ["Row"]
       reads := reads },
     { kind := .functionStmt, span := { start := 20, stop := 30 }, names := ["App"]
       body := some [] }]

/-- If the second type reads the props type, a fix leaves it first, and it is reported again, as one
that a fix can mend. -/
theorem props_reported_after_fix : ∃ ds,
    (SourceUnit.propsFirst ["AppProps"]).Declares .standard ds ∧
    (SectionGraph.of ds .typesInterfaces).isCyclic = false ∧
    ∃ v ∈ (validate .standard (reordered .standard ds)).violations,
      v.kind = .propsInterfacePosition ∧ v.fixable = true := by
  refine ⟨Outline.reading ["Props"] (.propsFirst ["AppProps"]) 2,
    declares_reading (by decide) .standard, ?_, ?_⟩
  · decide +kernel
  · decide +kernel

/-- If it does not, the props type is reported before the fix and not after it. -/
theorem props_last_propsFirst : ∃ ds, (SourceUnit.propsFirst []).Declares .standard ds ∧
    (SectionGraph.of ds .typesInterfaces).isCyclic = false ∧
    (∃ v ∈ (validate .standard ds).violations, v.kind = .propsInterfacePosition) ∧
    ¬ ∃ v ∈ (validate .standard (reordered .standard ds)).violations,
      v.kind = .propsInterfacePosition := by
  have hds : (SourceUnit.propsFirst []).Declares .standard
      (Outline.reading ["Props"] (.propsFirst []) 2) := declares_reading (by decide) .standard
  have hc : (SectionGraph.of (Outline.reading ["Props"] (.propsFirst []) 2)
      .typesInterfaces).isCyclic = false := by
    decide +kernel
  refine ⟨_, hds, hc, by decide +kernel, fun hx => ?_⟩
  have honly := (props_last_after_fix .standard .standard (.propsFirst []) _ hds hc).2.2
    ((Outline.reading ["Props"] (.propsFirst []) 2).get ⟨0, by decide +kernel⟩)
    (List.mem_filter.2 ⟨List.get_mem _ _, by decide +kernel⟩) (by decide +kernel)
    (by decide +kernel)
  exact absurd (honly.1 hx).2 (by decide +kernel)

end ComponentLint
