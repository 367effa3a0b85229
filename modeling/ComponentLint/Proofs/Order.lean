import ComponentLint.Proofs.Arrangement.Container
import ComponentLint.Validation
/-
  When a unit is in order, said without numbers. `NeedsSorting` is what makes a section to be
  sorted: two of its members that stand next to each other, leaving those on a cycle aside, are
  out of order, or a type stands behind the first props type. `InOrder`: the sections of each
  container ascend, and a section that needs sorting and has no cycle is sorted. A fix moves
  nothing exactly when this holds (`arranged_eq_iff`), and what a fix arranges is in order unless
  the move brings another props type to the front (`inOrder_arranged_iff`), which takes props types
  in both containers (`propsSettled_arranged`).
-/

namespace ComponentLint

namespace Profile

/-- The profiles of a section in one container. -/
def group (scope : Scope) (place : Section) (ps : List Profile) : List Profile :=
  ofSection place (inScope scope ps)

/-- The second must not stand right behind the first. -/
def OutOfOrder (p q : Profile) : Prop :=
  p.ReadsFrom q ∨ (q.isPropsType = false ∧ q.sortKey < p.sortKey ∧ ¬ q.ReadsFrom p)

/-- Two neighbours of a section are out of order; between them there are only profiles on a
cycle. -/
def HasMisplaced (place : Section) (ps : List Profile) : Prop :=
  ∃ scope l₁ p between q l₂, group scope place ps = l₁ ++ p :: (between ++ q :: l₂) ∧
    ¬ OnCycle (ofSection place ps) p ∧ ¬ OnCycle (ofSection place ps) q ∧
    (∀ r ∈ between, OnCycle (ofSection place ps) r) ∧ p.OutOfOrder q

/-- A type stands behind the first props type, in the container of that. -/
def PropsNotLast (ps : List Profile) : Prop :=
  ∃ l₁ p l₂, ofSection .typesInterfaces ps = l₁ ++ p :: l₂ ∧
    (∀ q ∈ l₁, q.isPropsType = false) ∧ p.isPropsType = true ∧ ∃ q ∈ l₂, q.scope = p.scope

def NeedsSorting (options : Options) (ps : List Profile) (place : Section) : Prop :=
  (place ∈ options.sortable ∧ HasMisplaced place ps) ∨
    (place = .typesInterfaces ∧ PropsNotLast ps)

/-- The sections of each container ascend, and those to be sorted are sorted unless they have a
cycle. -/
structure Ordered (order : SectionOrder) (resorted : Section → Prop) (ps : List Profile) :
    Prop where
  sections : ∀ scope, ((inScope scope ps).filterMap (·.section?)).Pairwise
    fun s t => order.position s ≤ order.position t
  sorted : ∀ place, resorted place → ¬ Cyclic place ps → ∀ scope, Sorted (group scope place ps)

/-- Nothing is to be moved. -/
def InOrder (options : Options) (ps : List Profile) : Prop :=
  Ordered options.order (NeedsSorting options ps) ps

/-- The props types of the types section stand in one container. -/
def PropsTogether (ps : List Profile) : Prop :=
  ∀ p ∈ ofSection .typesInterfaces ps, ∀ q ∈ ofSection .typesInterfaces ps,
    p.isPropsType = true → q.isPropsType = true → p.scope = q.scope

theorem group_eq (scope : Scope) (place : Section) (ps : List Profile) :
    group scope place ps = (ofSection place ps).filter (·.scope == scope) := by
  unfold group ofSection inScope
  rw [List.filter_filter, List.filter_filter]
  exact List.filter_congr fun p _ => Bool.and_comm _ _

theorem mem_group {scope : Scope} {place : Section} {ps : List Profile} {p : Profile} :
    p ∈ group scope place ps ↔ p ∈ ofSection place ps ∧ p.scope = scope := by
  rw [group_eq, List.mem_filter, beq_iff_eq]

/-- Without a cycle no neighbour is left aside, so a section has misplaced neighbours exactly when
some container has two members out of order right behind each other. -/
theorem hasMisplaced_iff_of_not_cyclic {place : Section} {ps : List Profile}
    (hc : ¬ Cyclic place ps) :
    HasMisplaced place ps ↔
      ∃ scope, ¬ (group scope place ps).IsChain fun p q => ¬ p.OutOfOrder q := by
  have hoff : ∀ {scope p}, p ∈ group scope place ps → ¬ OnCycle (ofSection place ps) p :=
    fun hp hcycle => hc ⟨_, (mem_group.1 hp).1, hcycle⟩
  constructor
  · intro hx
    obtain ⟨scope, l₁, p, between, q, l₂, heq, -, -, hbetween, hout⟩ := hx
    have hnil : between = [] := List.eq_nil_iff_forall_not_mem.2 fun r hr =>
      hoff (by rw [heq]; simp [hr]) (hbetween r hr)
    rw [hnil, List.nil_append] at heq
    exact ⟨scope, fun hchain =>
      List.isChain_iff_forall_rel_of_append_cons_cons.1 hchain heq hout⟩
  · intro hx
    obtain ⟨scope, hchain⟩ := hx
    rw [List.isChain_iff_forall_rel_of_append_cons_cons] at hchain
    push Not at hchain
    obtain ⟨p, q, l₁, l₂, heq, hout⟩ := hchain
    exact ⟨scope, l₁, p, [], q, l₂, heq, hoff (by rw [heq]; simp), hoff (by rw [heq]; simp),
      by simp, hout⟩

theorem exists_group_of_propsNotLast {ps : List Profile} (h : PropsNotLast ps) :
    ∃ scope l₁ p l₂, group scope .typesInterfaces ps = l₁ ++ p :: l₂ ∧
      (∀ q ∈ l₁, q.isPropsType = false) ∧ p.isPropsType = true ∧ l₂ ≠ [] := by
  obtain ⟨l₁, p, l₂, heq, hbefore, hp, q, hq, hscope⟩ := h
  refine ⟨p.scope, l₁.filter (·.scope == p.scope), p, l₂.filter (·.scope == p.scope), ?_,
    fun r hr => hbefore r (List.mem_filter.1 hr).1, hp, ?_⟩
  · rw [group_eq, heq, List.filter_append, List.filter_cons_of_pos (by simp)]
  · exact List.ne_nil_of_mem (List.mem_filter.2 ⟨hq, by simp [hscope]⟩)

/-- If the props types stand together, the first of a container is the first of all. -/
theorem propsNotLast_of_group {ps : List Profile} (ht : PropsTogether ps) {scope : Scope}
    {l₁ l₂ : List Profile} {p : Profile} (heq : group scope .typesInterfaces ps = l₁ ++ p :: l₂)
    (h : (∀ q ∈ l₁, q.isPropsType = false) ∧ p.isPropsType = true ∧ l₂ ≠ []) :
    PropsNotLast ps := by
  obtain ⟨hbefore, hp, hne⟩ := h
  rw [group_eq] at heq
  obtain ⟨m₁, m, hm, rfl, hrest⟩ := List.filter_eq_append_iff.1 heq
  obtain ⟨m₂, m₃, rfl, hskipped, hscope, rfl⟩ := List.filter_eq_cons_iff.1 hrest
  obtain ⟨q, hq⟩ := List.exists_mem_of_ne_nil _ hne
  rw [List.mem_filter, beq_iff_eq] at hq
  rw [beq_iff_eq] at hscope
  refine ⟨m₁ ++ m₂, p, m₃, by rw [hm, List.append_assoc], fun r hr => ?_, hp, q, hq.1,
    hq.2.trans hscope.symm⟩
  -- a props type before `p` would be in the container of `p`, and so before it there
  by_contra hprops
  have hr' : r ∈ ofSection .typesInterfaces ps := by
    rw [hm, ← List.append_assoc]
    exact List.mem_append_left _ hr
  have hsame := ht r hr' p (by rw [hm]; simp) (by simpa using hprops) hp
  rcases List.mem_append.1 hr with hr | hr
  · exact hprops (hbefore r (List.mem_filter.2 ⟨hr, by simp [hsame, hscope]⟩))
  · exact hskipped r hr (by simp [hsame, hscope])

end Profile

open Profile

theorem map_profile_inScope (scope : Scope) (ds : List Classified) :
    (inScope scope ds).map Classified.profile =
      Profile.inScope scope (ds.map Classified.profile) := by
  unfold inScope Profile.inScope
  rw [List.filter_map]
  rfl

theorem map_profile_group (scope : Scope) (place : Section) (ds : List Classified) :
    (sectionMembers (inScope scope ds) place).map Classified.profile =
      group scope place (ds.map Classified.profile) := by
  rw [map_profile_sectionMembers, map_profile_inScope, group]

theorem inScope_sectionMembers (scope : Scope) (place : Section) (ds : List Classified) :
    inScope scope (sectionMembers ds place) = sectionMembers (inScope scope ds) place := by
  unfold inScope sectionMembers
  rw [List.filter_filter, List.filter_filter]
  exact List.filter_congr fun d _ => Bool.and_comm _ _

theorem filterMap_section?_map_profile (scope : Scope) (ds : List Classified) :
    (Profile.inScope scope (ds.map Classified.profile)).filterMap (·.section?) =
      (inScope scope ds).filterMap (·.section?) := by
  rw [← map_profile_inScope, List.filterMap_map]
  rfl

/-! ## Sections to be sorted -/

theorem mem_neighbours {α : Type} {as : List α} {a b : α} :
    (a, b) ∈ Rule.neighbours as ↔ ∃ l₁ l₂, as = l₁ ++ a :: b :: l₂ := by
  unfold Rule.neighbours
  induction as with
  | nil => simp
  | cons c as ih =>
    cases as with
    | nil =>
      simp only [List.tail_cons, List.zip_nil_right, List.not_mem_nil, false_iff, not_exists]
      intro l₁ l₂ h
      have := congrArg List.length h
      simp at this
      omega
    | cons d as =>
      rw [List.tail_cons, List.zip_cons_cons, List.mem_cons]
      constructor
      · intro hx
        rcases hx with h | h
        · obtain ⟨rfl, rfl⟩ := Prod.mk.inj h
          exact ⟨[], as, rfl⟩
        · obtain ⟨l₁, l₂, h⟩ := ih.1 h
          exact ⟨c :: l₁, l₂, by rw [h, List.cons_append]⟩
      · intro hx
        obtain ⟨l₁, l₂, h⟩ := hx
        cases l₁ with
        | nil =>
          obtain ⟨hc, htail⟩ := List.cons.inj h
          rw [hc, (List.cons.inj htail).1]
          exact Or.inl rfl
        | cons e l₁ => exact Or.inr (ih.2 ⟨l₁, l₂, (List.cons.inj h).2⟩)

/-- Neighbours in a filtered list have between them only what the filter takes away. -/
theorem mem_neighbours_filter {α : Type} {as : List α} {f : α → Bool} {a b : α} :
    (a, b) ∈ Rule.neighbours (as.filter f) ↔ ∃ l₁ between l₂,
      as = l₁ ++ a :: (between ++ b :: l₂) ∧ f a = true ∧ f b = true ∧
        ∀ c ∈ between, f c = false := by
  rw [mem_neighbours]
  constructor
  · intro hx
    obtain ⟨l₁, l₂, h⟩ := hx
    obtain ⟨m₁, m₂, rfl, -, h⟩ := List.filter_eq_append_iff.1 h
    obtain ⟨n₁, n₂, rfl, -, ha, h⟩ := List.filter_eq_cons_iff.1 h
    obtain ⟨between, k₂, rfl, hnone, hb, -⟩ := List.filter_eq_cons_iff.1 h
    exact ⟨m₁ ++ n₁, between, k₂, by simp, ha, hb, fun c hc => by simpa using hnone c hc⟩
  · intro hx
    obtain ⟨l₁, between, l₂, rfl, ha, hb, hnone⟩ := hx
    have hbetween : between.filter f = [] := List.filter_eq_nil_iff.2 fun c hc => by
      simp [hnone c hc]
    refine ⟨l₁.filter f, l₂.filter f, ?_⟩
    rw [List.filter_append, List.filter_cons_of_pos ha, List.filter_append, hbetween,
      List.nil_append, List.filter_cons_of_pos hb]

section

variable {ds : List Classified} {place : Section}

theorem isSome_misplaced? (h : Numbered ds) {d e : Classified} (hd : d ∈ sectionMembers ds place)
    (he : e ∈ sectionMembers ds place) :
    (Rule.misplaced? (.of ds place) d e).isSome = true ↔ d.profile.OutOfOrder e.profile := by
  unfold Rule.misplaced? OutOfOrder
  rw [← dependsOn_of h hd he, ← dependsOn_of h he hd, Classified.profile_isPropsType,
    Classified.profile_sortKey, Classified.profile_sortKey]
  have hle : d.sortKey ≤ e.sortKey ↔ ¬ e.sortKey < d.sortKey := Iff.rfl
  cases (SectionGraph.of ds place).dependsOn d.index e.index with
  | true => simp
  | false =>
    cases (SectionGraph.of ds place).dependsOn e.index d.index <;> cases e.isPropsType <;>
      by_cases hkey : e.sortKey < d.sortKey <;> simp [hle, hkey]

theorem misplacedIn_ne_nil_iff_exists (graph : SectionGraph) (members : List Classified) :
    Rule.misplacedIn graph members ≠ [] ↔
      ∃ d e, (d, e) ∈ Rule.neighbours (members.filter fun d =>
        !graph.cycleMembers.contains d.index) ∧ (Rule.misplaced? graph d e).isSome = true := by
  unfold Rule.misplacedIn
  rw [← List.isEmpty_eq_false_iff, List.isEmpty_eq_false_iff_exists_mem]
  simp only [List.mem_filterMap, Prod.exists, Option.isSome_iff_exists]
  constructor
  · intro hx
    obtain ⟨m, d, e, hde, hm⟩ := hx
    exact ⟨d, e, hde, m, hm⟩
  · intro hx
    obtain ⟨d, e, hde, m, hm⟩ := hx
    exact ⟨m, d, e, hde, hm⟩

theorem misplacedIn_ne_nil (h : Numbered ds) {members : List Classified}
    (hm : ∀ d ∈ members, d ∈ sectionMembers ds place) :
    Rule.misplacedIn (.of ds place) members ≠ [] ↔
      ∃ l₁ p between q l₂, members.map Classified.profile = l₁ ++ p :: (between ++ q :: l₂) ∧
        ¬ OnCycle (ofSection place (ds.map Classified.profile)) p ∧
        ¬ OnCycle (ofSection place (ds.map Classified.profile)) q ∧
        (∀ r ∈ between, OnCycle (ofSection place (ds.map Classified.profile)) r) ∧
        p.OutOfOrder q := by
  have hcycle : ∀ d ∈ members, (!(SectionGraph.of ds place).cycleMembers.contains d.index) = true ↔
      ¬ OnCycle (ofSection place (ds.map Classified.profile)) d.profile := by
    intro d hd
    rw [Bool.not_eq_true', ← Bool.not_eq_true, List.contains_iff_mem,
      mem_cycleMembers_of h (hm d hd)]
  rw [misplacedIn_ne_nil_iff_exists]
  constructor
  · intro hx
    obtain ⟨d, e, hde, hsome⟩ := hx
    obtain ⟨l₁, between, l₂, rfl, hd, he, hbetween⟩ := mem_neighbours_filter.1 hde
    refine ⟨l₁.map Classified.profile, d.profile, between.map Classified.profile, e.profile,
      l₂.map Classified.profile, by simp, (hcycle d (by simp)).1 hd, (hcycle e (by simp)).1 he,
      fun r hr => ?_, ?_⟩
    · obtain ⟨c, hc, rfl⟩ := List.mem_map.1 hr
      by_contra hnot
      have hfalse := hbetween c hc
      rw [(hcycle c (by simp [hc])).2 hnot] at hfalse
      exact Bool.noConfusion hfalse
    · exact (isSome_misplaced? h (hm d (by simp)) (hm e (by simp))).1 hsome
  · intro hx
    obtain ⟨l₁, p, between, q, l₂, hmap, hp, hq, hbetween, hout⟩ := hx
    obtain ⟨m₁, n₁, rfl, -, h₁⟩ := List.map_eq_append_iff.1 hmap
    obtain ⟨d, n₂, rfl, rfl, h₂⟩ := List.map_eq_cons_iff.1 h₁
    obtain ⟨mid, n₃, rfl, rfl, h₃⟩ := List.map_eq_append_iff.1 h₂
    obtain ⟨e, m₂, rfl, rfl, -⟩ := List.map_eq_cons_iff.1 h₃
    refine ⟨d, e, mem_neighbours_filter.2 ⟨m₁, mid, m₂, rfl, (hcycle d (by simp)).2 hp,
      (hcycle e (by simp)).2 hq, fun c hc => ?_⟩, ?_⟩
    · rw [← Bool.not_eq_true, hcycle c (by simp [hc]), not_not]
      exact hbetween _ (List.mem_map_of_mem hc)
    · exact (isSome_misplaced? h (hm d (by simp)) (hm e (by simp))).2 hout

theorem place_of_mem_misplacedIn {graph : SectionGraph} {members : List Classified}
    {m : Rule.Misplaced} (hm : m ∈ Rule.misplacedIn graph members) : m.place = graph.place := by
  obtain ⟨⟨d, e⟩, -, hm⟩ := List.mem_filterMap.1 hm
  dsimp only [Rule.misplaced?] at hm
  split at hm
  · rw [← Option.some.inj hm]
  · split at hm
    · simp at hm
    · rw [← Option.some.inj hm]

theorem place_of_mem_misplacedOf {graph : SectionGraph} {m : Rule.Misplaced}
    (hm : m ∈ Rule.misplacedOf graph ds) : m.place = graph.place := by
  rcases List.mem_append.1 hm with hm | hm
  · exact place_of_mem_misplacedIn hm
  · exact place_of_mem_misplacedIn hm

theorem misplacedOf_ne_nil (h : Numbered ds) :
    Rule.misplacedOf (.of ds place) ds ≠ [] ↔
      HasMisplaced place (ds.map Classified.profile) := by
  have hscope : ∀ scope, Rule.misplacedIn (.of ds place) (inScope scope (sectionMembers ds place)) ≠
      [] ↔ ∃ l₁ p between q l₂, group scope place (ds.map Classified.profile) =
          l₁ ++ p :: (between ++ q :: l₂) ∧
        ¬ OnCycle (ofSection place (ds.map Classified.profile)) p ∧
        ¬ OnCycle (ofSection place (ds.map Classified.profile)) q ∧
        (∀ r ∈ between, OnCycle (ofSection place (ds.map Classified.profile)) r) ∧
        p.OutOfOrder q := by
    intro scope
    rw [misplacedIn_ne_nil h fun d hd => (inScope_sublist scope _).subset hd,
      inScope_sectionMembers, map_profile_group]
  have happend : Rule.misplacedOf (.of ds place) ds ≠ [] ↔
      ∃ scope, Rule.misplacedIn (.of ds place) (inScope scope (sectionMembers ds place)) ≠ [] := by
    show Rule.misplacedIn (.of ds place) (inScope .module (sectionMembers ds place)) ++
      Rule.misplacedIn (.of ds place) (inScope .component (sectionMembers ds place)) ≠ [] ↔ _
    rw [Ne, List.append_eq_nil_iff, not_and_or]
    constructor
    · intro hx
      rcases hx with hm | hm
      · exact ⟨.module, hm⟩
      · exact ⟨.component, hm⟩
    · intro hx
      obtain ⟨scope, hm⟩ := hx
      cases scope with
      | module => exact Or.inl hm
      | component => exact Or.inr hm
  rw [happend]
  exact exists_congr hscope

theorem mem_map_place_misplaced (h : Numbered ds) (options : Options) :
    place ∈ (Rule.misplaced options (sectionGraphs ds) ds).map (·.place) ↔
      place ∈ options.sortable ∧ HasMisplaced place (ds.map Classified.profile) := by
  unfold Rule.misplaced
  simp only [graphAt_sectionGraphs]
  rw [← misplacedOf_ne_nil h]
  constructor
  · intro hmem
    obtain ⟨m, hm, rfl⟩ := List.mem_map.1 hmem
    obtain ⟨s, -, hm⟩ := List.mem_flatMap.1 hm
    split at hm
    · next hs =>
      have hplace : m.place = s := place_of_mem_misplacedOf hm
      rw [hplace]
      exact ⟨List.contains_iff_mem.1 hs, List.ne_nil_of_mem hm⟩
    · simp at hm
  · intro hx
    obtain ⟨hs, hne⟩ := hx
    obtain ⟨m, hm⟩ := List.exists_mem_of_ne_nil _ hne
    refine List.mem_map.2 ⟨m, List.mem_flatMap.2 ⟨place, options.order.mem_sections place, ?_⟩,
      place_of_mem_misplacedOf hm⟩
    rw [if_pos (List.contains_iff_mem.2 hs)]
    exact hm

theorem Numbered.index_ne {l₁ l₂ : List Classified} {d e : Classified}
    (h : Numbered (l₁ ++ d :: l₂)) (he : e ∈ l₁ ++ l₂) : e.index ≠ d.index := by
  intro hi
  unfold Numbered at h
  rw [List.map_append, List.map_cons, List.nodup_middle, List.nodup_cons, ← List.map_append] at h
  exact h.1 (List.mem_map.2 ⟨e, he, hi⟩)

theorem getLast?_any_index {l₁ l₂ : List Classified} {d : Classified}
    (h : Numbered (l₁ ++ d :: l₂)) :
    (l₁ ++ d :: l₂).getLast?.any (·.index == d.index) = true ↔ l₂ = [] := by
  cases l₂ using List.reverseRec with
  | nil => simp
  | append_singleton l₂ e _ =>
    have hne : e.index ≠ d.index := h.index_ne (by simp)
    have hlast : (l₁ ++ d :: (l₂ ++ [e])).getLast? = some e := by
      rw [← List.cons_append, ← List.append_assoc, List.getLast?_concat]
    rw [hlast]
    simpa using hne

theorem inScope_append_cons (l₁ : List Classified) (d : Classified) (l₂ : List Classified) :
    inScope d.scope (l₁ ++ d :: l₂) = inScope d.scope l₁ ++ d :: inScope d.scope l₂ := by
  unfold inScope
  rw [List.filter_append, List.filter_cons_of_pos (by simp)]

/-- The props type that ends its container's types is the last of them by its number. -/
theorem getLast?_inScope_types (h : Numbered ds) {l₁ l₂ : List Classified} {d : Classified}
    (heq : sectionMembers ds .typesInterfaces = l₁ ++ d :: l₂) :
    (inScope d.scope (sectionMembers ds .typesInterfaces)).getLast?.any (·.index == d.index) =
      true ↔ inScope d.scope l₂ = [] := by
  have hn := h.sublist ((inScope_sublist d.scope _).trans
    (sectionMembers_sublist ds .typesInterfaces))
  rw [heq, inScope_append_cons] at hn ⊢
  exact getLast?_any_index hn

theorem propsNotLast?_eq_some_iff (h : Numbered ds) {d : Classified} :
    Rule.propsNotLast? ds = some d ↔
      ∃ l₁ l₂, sectionMembers ds .typesInterfaces = l₁ ++ d :: l₂ ∧
        (∀ e ∈ l₁, e.isPropsType = false) ∧ d.isPropsType = true ∧ inScope d.scope l₂ ≠ [] := by
  unfold Rule.propsNotLast?
  dsimp only
  cases hf : (sectionMembers ds .typesInterfaces).find? (·.isPropsType) with
  | none =>
    simp only [reduceCtorEq, false_iff]
    intro hx
    obtain ⟨l₁, l₂, heq, -, hprops, -⟩ := hx
    exact List.find?_eq_none.1 hf d (by rw [heq]; simp) hprops
  | some props =>
    dsimp only
    constructor
    · intro hsome
      obtain ⟨hprops, l₁, l₂, heq, hbefore⟩ := List.find?_eq_some_iff_append.1 hf
      have hlast := getLast?_inScope_types h heq
      split at hsome
      · simp at hsome
      · next hnot =>
        rw [← Option.some.inj hsome]
        exact ⟨l₁, l₂, heq, fun e he => by simpa using hbefore e he, hprops, mt hlast.2 hnot⟩
    · intro hx
      obtain ⟨l₁, l₂, heq, hbefore, hprops, hne⟩ := hx
      have hd : (sectionMembers ds .typesInterfaces).find? (·.isPropsType) = some d :=
        List.find?_eq_some_iff_append.2 ⟨hprops, l₁, l₂, heq, fun e he => by simp [hbefore e he]⟩
      rw [hf] at hd
      rw [Option.some.inj hd, if_neg (mt (getLast?_inScope_types h heq).1 hne)]

theorem mem_types_of_propsNotLast? (h : Numbered ds) {d : Classified}
    (hd : Rule.propsNotLast? ds = some d) : d ∈ sectionMembers ds .typesInterfaces := by
  obtain ⟨l₁, l₂, heq, -⟩ := (propsNotLast?_eq_some_iff h).1 hd
  rw [heq]
  simp

theorem isSome_propsNotLast? (h : Numbered ds) :
    (Rule.propsNotLast? ds).isSome = true ↔ PropsNotLast (ds.map Classified.profile) := by
  have hscope : ∀ (d : Classified) (l : List Classified),
      inScope d.scope l ≠ [] ↔ ∃ q ∈ l.map Classified.profile, q.scope = d.profile.scope := by
    intro d l
    rw [Ne, inScope, List.filter_eq_nil_iff]
    simp
  rw [Option.isSome_iff_exists]
  simp only [propsNotLast?_eq_some_iff h]
  unfold PropsNotLast
  rw [← map_profile_sectionMembers]
  constructor
  · intro hx
    obtain ⟨d, l₁, l₂, heq, hbefore, hprops, hne⟩ := hx
    refine ⟨l₁.map Classified.profile, d.profile, l₂.map Classified.profile, ?_, ?_, hprops,
      (hscope d l₂).1 hne⟩
    · rw [heq, List.map_append, List.map_cons]
    · exact List.forall_mem_map.2 hbefore
  · intro hx
    obtain ⟨l₁, p, l₂, hmap, hbefore, hprops, hq⟩ := hx
    obtain ⟨m₁, n₁, heq, rfl, h₁⟩ := List.map_eq_append_iff.1 hmap
    obtain ⟨d, m₂, rfl, rfl, rfl⟩ := List.map_eq_cons_iff.1 h₁
    exact ⟨d, m₁, m₂, heq, List.forall_mem_map.1 hbefore, hprops, (hscope d m₂).2 hq⟩

/-- The sections that a validation has sorted are those that need it. -/
theorem mem_resorted_iff (h : Numbered ds) (options : Options) :
    place ∈ (validate options ds).resorted ↔
      NeedsSorting options (ds.map Classified.profile) place := by
  show place ∈ options.order.sections.filter _ ↔ _
  rw [List.mem_filter, and_iff_right (options.order.mem_sections place), Bool.or_eq_true,
    List.contains_iff_mem, mem_map_place_misplaced h options, Bool.and_eq_true, beq_iff_eq,
    isSome_propsNotLast? h]
  rfl

/-! ## The order that a fix gives -/

variable {before body after : List Classified} {component : Classified}

theorem inScope_arrange (hl : Layout ds before component body after) (hn : Numbered ds)
    (order : SectionOrder) (resorted : List Section) (scope : Scope) :
    inScope scope (arrange order resorted (sectionGraphs ds) ds) =
      arrangeContainer order resorted (sectionGraphs ds) (inScope scope ds) := by
  obtain ⟨before', after', hmod, hlay⟩ := hl.arrange hn order resorted
  cases scope with
  | module => rw [hlay.inScope_module, hmod]
  | component => rw [hlay.inScope_component]

theorem arrange_perm (hl : Layout ds before component body after) (hn : Numbered ds)
    (order : SectionOrder) (resorted : List Section) :
    (arrange order resorted (sectionGraphs ds) ds).Perm ds := by
  obtain ⟨before', after', hmod, hlay⟩ := hl.arrange hn order resorted
  refine hlay.perm.trans (List.Perm.trans ?_ hl.perm.symm)
  rw [inScope_arrange hl hn, inScope_arrange hl hn]
  exact (arrangeContainer_perm order resorted hn (inScope_sublist .module ds)).append
    (arrangeContainer_perm order resorted hn (inScope_sublist .component ds))

theorem cyclic_arrange (hl : Layout ds before component body after) (hn : Numbered ds)
    (order : SectionOrder) (resorted : List Section) (place : Section) :
    Cyclic place ((arrange order resorted (sectionGraphs ds) ds).map Classified.profile) ↔
      Cyclic place (ds.map Classified.profile) :=
  cyclic_of_perm ((arrange_perm hl hn order resorted).map _)

/-- What is arranged is ordered. -/
theorem ordered_arrange (hl : Layout ds before component body after) (hn : Numbered ds)
    (order : SectionOrder) (resorted : List Section) :
    Ordered order (· ∈ resorted)
      ((arrange order resorted (sectionGraphs ds) ds).map Classified.profile) := by
  constructor
  · intro scope
    rw [filterMap_section?_map_profile, inScope_arrange hl hn]
    exact arrangeContainer_sections hn (inScope_sublist scope ds)
  · intro place hr hc scope
    rw [cyclic_arrange hl hn] at hc
    rw [← map_profile_group, inScope_arrange hl hn]
    exact arrangeContainer_sorted hn (inScope_sublist scope ds) ⟨hr, hc⟩

/-- Arranging leaves a sequence alone exactly when it is ordered. -/
theorem arrange_eq_self_iff (hl : Layout ds before component body after) (hn : Numbered ds)
    (hi : ds.Pairwise fun d e => d.index ≤ e.index) (order : SectionOrder)
    (resorted : List Section) :
    arrange order resorted (sectionGraphs ds) ds = ds ↔
      Ordered order (· ∈ resorted) (ds.map Classified.profile) := by
  constructor
  · intro heq
    have := ordered_arrange hl hn order resorted
    rwa [heq] at this
  · intro ho
    refine hl.arrange_eq_self order resorted fun scope => ?_
    refine arrangeContainer_eq_self hn (inScope_sublist scope ds)
      (hi.sublist (inScope_sublist scope ds)) ?_ fun place hs => ?_
    · have := ho.sections scope
      rwa [filterMap_section?_map_profile] at this
    · rw [map_profile_group]
      exact ho.sorted place hs.1 hs.2 scope

/-- A section that is not sorted keeps its order in each container. -/
theorem inScope_sectionMembers_arrange (hl : Layout ds before component body after)
    (hn : Numbered ds) (order : SectionOrder) {resorted : List Section}
    (hs : ¬ IsSorted resorted place (ds.map Classified.profile)) (scope : Scope) :
    inScope scope (sectionMembers (arrange order resorted (sectionGraphs ds) ds) place) =
      inScope scope (sectionMembers ds place) := by
  rw [inScope_sectionMembers, inScope_sectionMembers, inScope_arrange hl hn,
    arrangeContainer_unsorted hn (inScope_sublist scope ds) hs]

theorem group_arrange (hl : Layout ds before component body after) (hn : Numbered ds)
    (order : SectionOrder) {resorted : List Section}
    (hs : ¬ IsSorted resorted place (ds.map Classified.profile)) (scope : Scope) :
    group scope place ((arrange order resorted (sectionGraphs ds) ds).map Classified.profile) =
      group scope place (ds.map Classified.profile) := by
  rw [← map_profile_group, ← map_profile_group, ← inScope_sectionMembers, ← inScope_sectionMembers,
    inScope_sectionMembers_arrange hl hn order hs]

/-- A section that is not sorted has the same neighbours before and after. -/
theorem hasMisplaced_arrange (hl : Layout ds before component body after) (hn : Numbered ds)
    (order : SectionOrder) {resorted : List Section}
    (hs : ¬ IsSorted resorted place (ds.map Classified.profile)) :
    HasMisplaced place ((arrange order resorted (sectionGraphs ds) ds).map Classified.profile) ↔
      HasMisplaced place (ds.map Classified.profile) := by
  have hmem : ∀ p, p ∈ ofSection place
      ((arrange order resorted (sectionGraphs ds) ds).map Classified.profile) ↔
        p ∈ ofSection place (ds.map Classified.profile) := fun p =>
    (((arrange_perm hl hn order resorted).map Classified.profile).filter _).mem_iff
  simp only [HasMisplaced, group_arrange hl hn order hs, onCycle_of_mem_iff hmem]

/-- A fix moves nothing exactly when all is in order. -/
theorem arranged_eq_iff (hl : Layout ds before component body after) (hn : Numbered ds)
    (hi : ds.Pairwise fun d e => d.index ≤ e.index) (options : Options) :
    (validate options ds).arranged = ds ↔ InOrder options (ds.map Classified.profile) := by
  refine (arrange_eq_self_iff hl hn hi options.order _).trans ?_
  have hneeds : (· ∈ (validate options ds).resorted) =
      NeedsSorting options (ds.map Classified.profile) :=
    funext fun place => propext (mem_resorted_iff hn options)
  show Ordered _ (· ∈ (validate options ds).resorted) _ ↔ _
  rw [hneeds]
  rfl

/-- The types of a sequence are sorted, or need not be: no type stands behind the first props
type, or some types read each other in a circle. -/
structure PropsSettled (ps : List Profile) : Prop where
  sorted : PropsNotLast ps → ¬ Cyclic .typesInterfaces ps →
    ∀ scope, Sorted (group scope .typesInterfaces ps)

/-- What a fix arranges is in order if its types are settled. A section sorted by the fix is
sorted; any other has the neighbours that it had, which gave no reason to sort it. -/
theorem inOrder_arranged_iff (hl : Layout ds before component body after) (hn : Numbered ds)
    (options : Options) :
    InOrder options ((validate options ds).arranged.map Classified.profile) ↔
      PropsSettled ((validate options ds).arranged.map Classified.profile) := by
  have hordered := ordered_arrange hl hn options.order (validate options ds).resorted
  constructor
  · exact fun h => ⟨fun hprops hc scope => h.sorted _ (Or.inr ⟨rfl, hprops⟩) hc scope⟩
  · intro hsettled
    refine ⟨hordered.sections, fun place hneeds hc scope => ?_⟩
    by_cases hr : place ∈ (validate options ds).resorted
    · exact hordered.sorted place hr hc scope
    · have hs : ¬ IsSorted (validate options ds).resorted place (ds.map Classified.profile) :=
        fun hs => hr hs.1
      rcases hneeds with ⟨hsortable, hmis⟩ | ⟨rfl, hprops⟩
      · refine absurd ((mem_resorted_iff hn options).2 (Or.inl ⟨hsortable, ?_⟩)) hr
        exact (hasMisplaced_arrange hl hn options.order hs).1 hmis
      · exact hsettled.sorted hprops hc scope

/-- If all props types stand in one container and the types are not sorted, no type comes to stand
behind the first props type: the order of the types in that container is the same as before, and so
is the first props type. -/
theorem not_propsNotLast_arranged (hl : Layout ds before component body after) (hn : Numbered ds)
    (options : Options) (ht : PropsTogether (ds.map Classified.profile))
    (hr : .typesInterfaces ∉ (validate options ds).resorted) :
    ¬ PropsNotLast ((validate options ds).arranged.map Classified.profile) := by
  intro hprops
  have hs : ¬ IsSorted (validate options ds).resorted .typesInterfaces
      (ds.map Classified.profile) := fun hs => hr hs.1
  obtain ⟨scope, l₁, p, l₂, heq, hrest⟩ := exists_group_of_propsNotLast hprops
  have hgroup := group_arrange hl hn options.order hs scope
  have hbefore : PropsNotLast (ds.map Classified.profile) :=
    propsNotLast_of_group ht (hgroup.symm.trans heq) hrest
  exact hr ((mem_resorted_iff hn options).2 (Or.inr ⟨rfl, hbefore⟩))

/-- The types are settled when all props types stand in one container. -/
theorem propsSettled_arranged (hl : Layout ds before component body after) (hn : Numbered ds)
    (options : Options) (ht : PropsTogether (ds.map Classified.profile)) :
    PropsSettled ((validate options ds).arranged.map Classified.profile) := by
  refine ⟨fun hprops hc scope => ?_⟩
  have hordered := ordered_arrange hl hn options.order (validate options ds).resorted
  by_cases hr : .typesInterfaces ∈ (validate options ds).resorted
  · exact hordered.sorted _ hr hc scope
  · exact absurd hprops (not_propsNotLast_arranged hl hn options ht hr)

end

end ComponentLint
