import ComponentLint.Proofs.Graph.Cycles
/-
  Dependencies without numbers. The profile of a declaration is what its order among others
  depends on: not its number, nor where its statement stands. For declarations with different
  numbers, the graph of a section says no more than the profiles do: an edge is a name that one
  profile reads and another binds, and the members on a cycle are those whose profile reads itself
  in several steps.
-/

namespace ComponentLint

/-- What the order of a declaration depends on. -/
structure Profile where
  name : String
  kind : Kind
  scope : Scope
  bound : List String
  reads : List String
  placement : Placement
deriving DecidableEq

def Classified.profile (d : Classified) : Profile :=
  ⟨d.name, d.kind, d.scope, d.bound, d.reads, d.placement⟩

namespace Profile

def section? (p : Profile) : Option Section :=
  p.placement.section?

def sortKey (p : Profile) : String :=
  Text.foldCase p.name

def isPropsType (p : Profile) : Bool :=
  match p.kind with
  | .typeAlias isProps => isProps
  | .interface isProps => isProps
  | _ => false

/-- It reads a name that the other binds; profiles of the same name do not count. -/
def ReadsFrom (p q : Profile) : Prop :=
  p.name ≠ q.name ∧ ∃ name ∈ p.reads, name ∈ q.bound

/-- The profiles of a section. -/
def ofSection (place : Section) (ps : List Profile) : List Profile :=
  ps.filter (·.section? == some place)

def inScope (scope : Scope) (ps : List Profile) : List Profile :=
  ps.filter (·.scope == scope)

/-- It reads itself, by way of other profiles of the list. -/
def OnCycle (ps : List Profile) (p : Profile) : Prop :=
  Relation.TransGen (fun a b => a ∈ ps ∧ b ∈ ps ∧ a.ReadsFrom b) p p

/-- Some profiles of the section read each other in a circle. -/
def Cyclic (place : Section) (ps : List Profile) : Prop :=
  ∃ p ∈ ofSection place ps, OnCycle (ofSection place ps) p

theorem onCycle_of_mem_iff {ps qs : List Profile} (h : ∀ p, p ∈ ps ↔ p ∈ qs) (p : Profile) :
    OnCycle ps p ↔ OnCycle qs p := by
  simp only [OnCycle, h]

theorem cyclic_of_perm {place : Section} {ps qs : List Profile} (h : ps.Perm qs) :
    Cyclic place ps ↔ Cyclic place qs := by
  have hm : ∀ p, p ∈ ofSection place ps ↔ p ∈ ofSection place qs := fun p =>
    (h.filter _).mem_iff
  simp only [Cyclic, hm, onCycle_of_mem_iff hm]

end Profile

section

@[simp] theorem Classified.profile_sortKey (d : Classified) : d.profile.sortKey = d.sortKey :=
  rfl

@[simp] theorem Classified.profile_isPropsType (d : Classified) :
    d.profile.isPropsType = d.isPropsType :=
  rfl

@[simp] theorem Classified.profile_scope (d : Classified) : d.profile.scope = d.scope :=
  rfl

end

theorem map_profile_sectionMembers (ds : List Classified) (place : Section) :
    (sectionMembers ds place).map Classified.profile =
      Profile.ofSection place (ds.map Classified.profile) := by
  unfold sectionMembers Profile.ofSection
  rw [List.filter_map]
  rfl

theorem sectionMembers_sublist (ds : List Classified) (place : Section) :
    (sectionMembers ds place).Sublist ds :=
  List.filter_sublist

/-- The declarations have different numbers. -/
def Numbered (ds : List Classified) : Prop :=
  (ds.map (·.index)).Nodup

theorem Numbered.sublist {ds es : List Classified} (h : Numbered ds) (hs : es.Sublist ds) :
    Numbered es :=
  List.Nodup.sublist (hs.map _) h

theorem Numbered.eq_of_index {ds : List Classified} (h : Numbered ds) {d e : Classified}
    (hd : d ∈ ds) (he : e ∈ ds) (hi : d.index = e.index) : d = e :=
  List.inj_on_of_nodup_map h hd he hi

theorem readsFrom_iff {ds : List Classified} (h : Numbered ds) {d e : Classified} (hd : d ∈ ds)
    (he : e ∈ ds) :
    d.toDeclaration.readsFrom e.toDeclaration = true ↔ d.profile.ReadsFrom e.profile := by
  simp only [Declaration.readsFrom, Bool.and_eq_true, bne_iff_ne, ne_eq, List.any_eq_true,
    List.contains_iff_mem]
  constructor
  · exact fun hr => ⟨hr.1.2, hr.2⟩
  · intro hr
    refine ⟨⟨fun hi => hr.1 ?_, hr.1⟩, hr.2⟩
    rw [h.eq_of_index hd he hi]

namespace SectionGraph

variable {members : List Classified}

theorem map_fst_edgesOf (members : List Classified) :
    (edgesOf members).map Prod.fst = (members.map (·.index)).eraseDups := by
  simp [edgesOf, Function.comp_def]

theorem nodup_edgesOf (members : List Classified) : ((edgesOf members).map Prod.fst).Nodup := by
  rw [map_fst_edgesOf]
  exact Graph.nodup_eraseDups _

/-- An edge leads from the number of a member to that of a member which it reads. -/
theorem mem_successors_edgesOf_iff {i j : Nat} :
    j ∈ (edgesOf members).successors i ↔ ∃ d ∈ members, ∃ e ∈ members,
      d.index = i ∧ e.index = j ∧ d.toDeclaration.readsFrom e.toDeclaration = true := by
  rw [Graph.mem_successors_iff (nodup_edgesOf members)]
  constructor
  · intro hx
    obtain ⟨next, hg, hj⟩ := hx
    obtain ⟨i', -, heq⟩ := List.mem_map.1 hg
    obtain ⟨rfl, rfl⟩ := Prod.mk.inj heq
    obtain ⟨e, he, rfl⟩ := List.mem_map.1 hj
    obtain ⟨he, hany⟩ := List.mem_filter.1 he
    obtain ⟨d, hd, hr⟩ := List.any_eq_true.1 hany
    obtain ⟨hd, hi⟩ := List.mem_filter.1 hd
    exact ⟨d, hd, e, he, eq_of_beq hi, rfl, hr⟩
  · intro hx
    obtain ⟨d, hd, e, he, rfl, rfl, hr⟩ := hx
    refine ⟨_, List.mem_map.2 ⟨d.index, List.mem_eraseDups.2 (List.mem_map_of_mem hd), rfl⟩, ?_⟩
    refine List.mem_map.2 ⟨e, List.mem_filter.2 ⟨he, List.any_eq_true.2 ⟨d, ?_, hr⟩⟩, rfl⟩
    exact List.mem_filter.2 ⟨hd, beq_self_eq_true _⟩

theorem mem_successors_edgesOf (h : Numbered members) {i j : Nat} :
    j ∈ (edgesOf members).successors i ↔
      ∃ d ∈ members, ∃ e ∈ members, d.index = i ∧ e.index = j ∧ d.profile.ReadsFrom e.profile := by
  rw [mem_successors_edgesOf_iff]
  constructor
  · intro hx
    obtain ⟨d, hd, e, he, hi, hj, hr⟩ := hx
    exact ⟨d, hd, e, he, hi, hj, (readsFrom_iff h hd he).1 hr⟩
  · intro hx
    obtain ⟨d, hd, e, he, hi, hj, hr⟩ := hx
    exact ⟨d, hd, e, he, hi, hj, (readsFrom_iff h hd he).2 hr⟩

theorem mem_successors_iff (h : Numbered members) {d e : Classified} (hd : d ∈ members)
    (he : e ∈ members) :
    e.index ∈ (edgesOf members).successors d.index ↔ d.profile.ReadsFrom e.profile := by
  rw [mem_successors_edgesOf h]
  constructor
  · intro hx
    obtain ⟨d', hd', e', he', hi, hj, hr⟩ := hx
    rw [← h.eq_of_index hd' hd hi, ← h.eq_of_index he' he hj]
    exact hr
  · exact fun hr => ⟨d, hd, e, he, rfl, rfl, hr⟩

theorem index_not_mem_successors (members : List Classified) (i : Nat) :
    i ∉ (edgesOf members).successors i := by
  rw [mem_successors_edgesOf_iff]
  intro hx
  obtain ⟨d, -, e, -, hi, hj, hr⟩ := hx
  simp [Declaration.readsFrom, hi.trans hj.symm] at hr

/-- Paths between numbers are paths between profiles. The way back picks a member for each
profile on the path; members of one profile have the same edges. -/
theorem transGen_iff (h : Numbered members) {d e : Classified} (hd : d ∈ members)
    (he : e ∈ members) :
    Relation.TransGen (fun i j => j ∈ (edgesOf members).successors i) d.index e.index ↔
      Relation.TransGen (fun p q => p ∈ members.map Classified.profile ∧
        q ∈ members.map Classified.profile ∧ p.ReadsFrom q) d.profile e.profile := by
  constructor
  · intro hp
    generalize hj : e.index = j at hp
    induction hp generalizing e with
    | single hs =>
      rw [← hj, mem_successors_iff h hd he] at hs
      exact .single ⟨List.mem_map_of_mem hd, List.mem_map_of_mem he, hs⟩
    | tail _ hs ih =>
      obtain ⟨c, hc, e', he', hi, hj', hr⟩ := (mem_successors_edgesOf h).1 hs
      rw [h.eq_of_index he' he (hj'.trans hj.symm)] at hr
      exact (ih hc hi).tail ⟨List.mem_map_of_mem hc, List.mem_map_of_mem he, hr⟩
  · intro hp
    generalize hq : e.profile = q at hp
    induction hp generalizing e with
    | single hs =>
      rw [← hq] at hs
      exact .single ((mem_successors_iff h hd he).2 hs.2.2)
    | tail _ hs ih =>
      obtain ⟨c, hc, hcp⟩ := List.mem_map.1 hs.1
      rw [← hq, ← hcp] at hs
      exact (ih hc hcp).tail ((mem_successors_iff h hc he).2 hs.2.2)

theorem mem_nodes_edgesOf {i : Nat} :
    i ∈ (edgesOf members).nodes ↔ i ∈ members.map (·.index) := by
  rw [Graph.mem_nodes, map_fst_edgesOf, List.mem_eraseDups, or_iff_left_iff_imp]
  simp only [edgesOf, List.mem_flatMap, List.mem_map]
  intro hx
  obtain ⟨_, ⟨_, -, rfl⟩, hi⟩ := hx
  obtain ⟨e, he, rfl⟩ := List.mem_map.1 hi
  exact ⟨e, (List.mem_filter.1 he).1, rfl⟩

/-- A number is on a cycle if a path leads from it back to it. -/
theorem mem_cycleMembers_iff (place : Section) {i : Nat} :
    i ∈ (ofMembers place members).cycleMembers ↔ i ∈ members.map (·.index) ∧
      Relation.TransGen (fun i j => j ∈ (edgesOf members).successors i) i i := by
  unfold cycleMembers ofMembers
  rw [mem_flatten_cyclesOf (nodup_edgesOf members), mem_nodes_edgesOf,
    exists_mutual_iff (index_not_mem_successors members)]

theorem cycles_ne_nil_iff (place : Section) : (ofMembers place members).cycles ≠ [] ↔
    ∃ i, i ∈ (ofMembers place members).cycleMembers := by
  unfold cycleMembers ofMembers
  exact exists_mem_flatten_cyclesOf

theorem mem_cycleMembers_ofMembers (h : Numbered members) (place : Section) {d : Classified}
    (hd : d ∈ members) :
    d.index ∈ (ofMembers place members).cycleMembers ↔
      Profile.OnCycle (members.map Classified.profile) d.profile := by
  rw [mem_cycleMembers_iff, transGen_iff h hd hd, and_iff_right (List.mem_map_of_mem hd)]
  rfl

theorem isCyclic_ofMembers (h : Numbered members) (place : Section) :
    (ofMembers place members).isCyclic = true ↔
      ∃ d ∈ members, Profile.OnCycle (members.map Classified.profile) d.profile := by
  have hne : (ofMembers place members).isCyclic = true ↔ (ofMembers place members).cycles ≠ [] := by
    simp [isCyclic]
  rw [hne, cycles_ne_nil_iff]
  constructor
  · intro hx
    obtain ⟨i, hi⟩ := hx
    obtain ⟨d, hd, rfl⟩ := List.mem_map.1 ((mem_cycleMembers_iff place).1 hi).1
    exact ⟨d, hd, (mem_cycleMembers_ofMembers h place hd).1 hi⟩
  · intro hx
    obtain ⟨d, hd, hc⟩ := hx
    exact ⟨d.index, (mem_cycleMembers_ofMembers h place hd).2 hc⟩

end SectionGraph

/-! ## The graphs of a sequence of declarations -/

theorem mem_sectionsPresent {ds : List Classified} {place : Section} {d : Classified}
    (hd : d ∈ sectionMembers ds place) : place ∈ sectionsPresent ds := by
  obtain ⟨hd, hs⟩ := List.mem_filter.1 hd
  rw [sectionsPresent, List.mem_eraseDups, List.mem_filterMap]
  exact ⟨d, hd, by simpa using hs⟩

/-- A section without declarations has the graph of no members, listed or not. -/
theorem graphAt_sectionGraphs (ds : List Classified) (place : Section) :
    graphAt (sectionGraphs ds) place = SectionGraph.of ds place := by
  unfold graphAt sectionGraphs
  rw [List.find?_map]
  have hcomp : ((fun g : SectionGraph => g.place == place) ∘ SectionGraph.of ds) =
      fun s => s == place := rfl
  rw [hcomp]
  cases hf : (sectionsPresent ds).find? (· == place) with
  | some s =>
    have hs : s = place := by simpa using List.find?_some hf
    rw [hs]
    rfl
  | none =>
    have habsent : place ∉ sectionsPresent ds := fun hm => by
      simpa using List.find?_eq_none.1 hf place hm
    have hnil : sectionMembers ds place = [] :=
      List.eq_nil_iff_forall_not_mem.2 fun d hd => habsent (mem_sectionsPresent hd)
    rw [SectionGraph.of, hnil]
    rfl

variable {ds : List Classified}

theorem SectionGraph.cycles_of (ds : List Classified) (place : Section) :
    (of ds place).cycles = cyclesOf (edgesOf (sectionMembers ds place)) :=
  rfl

theorem isCyclic_of (h : Numbered ds) (place : Section) :
    (SectionGraph.of ds place).isCyclic = true ↔
      Profile.Cyclic place (ds.map Classified.profile) := by
  unfold SectionGraph.of Profile.Cyclic
  rw [SectionGraph.isCyclic_ofMembers (h.sublist (sectionMembers_sublist ds place)),
    ← map_profile_sectionMembers]
  simp only [List.mem_map, exists_exists_and_eq_and]

theorem mem_cycleMembers_of (h : Numbered ds) {place : Section} {d : Classified}
    (hd : d ∈ sectionMembers ds place) :
    d.index ∈ (SectionGraph.of ds place).cycleMembers ↔
      Profile.OnCycle (Profile.ofSection place (ds.map Classified.profile)) d.profile := by
  rw [← map_profile_sectionMembers]
  exact SectionGraph.mem_cycleMembers_ofMembers (h.sublist (sectionMembers_sublist ds place)) _ hd

theorem dependsOn_of (h : Numbered ds) {place : Section} {d e : Classified}
    (hd : d ∈ sectionMembers ds place) (he : e ∈ sectionMembers ds place) :
    (SectionGraph.of ds place).dependsOn d.index e.index = true ↔
      d.profile.ReadsFrom e.profile := by
  unfold SectionGraph.dependsOn
  rw [List.contains_iff_mem]
  exact SectionGraph.mem_successors_iff (h.sublist (sectionMembers_sublist ds place)) hd he

end ComponentLint
