import ComponentLint.Proofs.Fix.Plan
/-
  Fixing a unit twice. A second fix moves nothing exactly when the fixed unit is in order
  (`fixed_eq_false_iff`). The second run reads the unit anew, and it may read it otherwise: another
  statement may now be the first that can be a component, a return may have come to the end of the
  body or left it, and a statement without a name is named by its line. If none of this happens
  (`KeepsReading`), the declarations are the arranged ones (`map_profile_reading`), and the second
  fix moves nothing exactly when the types are settled (`inOrder_fixed_iff`).
-/

namespace ComponentLint

/-! ## What a statement is read as -/

/-- The statements differ in their offsets and in their bodies only, and both or none of them have
a body. -/
structure Statement.Alike (s t : Statement) : Prop where
  eq : t = { s with span := t.span, leadingStart := t.leadingStart, body := t.body }
  body : t.body.isSome = s.body.isSome

namespace Statement

variable {s t : Statement}

theorem MovedTo.body_eq (h : s.MovedTo t) : t.body = s.body := by
  rw [h]

theorem MovedTo.alike (h : s.MovedTo t) : s.Alike t := by
  refine ⟨?_, by rw [h.body_eq]⟩
  rw [h.body_eq]
  exact h

/-- A component moved, with a body of its own. -/
theorem MovedTo.alike_with_body (h : s.MovedTo t) (hs : s.body.isSome = true)
    (body : List Statement) : s.Alike { t with body := some body } := by
  refine ⟨?_, hs.symm⟩
  rw [h]

theorem Alike.declaredKind (h : s.Alike t) (setting : Setting) (scope : Scope) (isLast : Bool) :
    t.declaredKind setting scope isLast = s.declaredKind setting scope isLast := by
  rw [h.eq]
  rfl

theorem Alike.name? (h : s.Alike t) : t.name? = s.name? := by
  rw [h.eq]
  rfl

theorem Alike.boundNames (h : s.Alike t) : t.boundNames = s.boundNames := by
  rw [h.eq]
  rfl

theorem Alike.reads (h : s.Alike t) : t.reads = s.reads := by
  rw [h.eq]

theorem Alike.leadingComment (h : s.Alike t) : t.leadingComment = s.leadingComment := by
  rw [h.eq]

theorem Alike.isComponent (h : s.Alike t) : t.isComponent = s.isComponent := by
  have hkind : t.kind = s.kind := by rw [h.eq]
  unfold Statement.isComponent
  rw [h.name?, h.body, hkind]

theorem kind_ne_return_of_isComponent (h : s.isComponent = true) : s.kind ≠ .returnStmt := by
  intro hk
  unfold Statement.isComponent at h
  rw [hk] at h
  exact absurd h (by simp)

end Statement

/-- What a profile depends on. -/
theorem Declaration.profile_placed {d e : Declaration} (hname : d.name = e.name)
    (hkind : d.kind = e.kind) (hscope : d.scope = e.scope) (hbound : d.bound = e.bound)
    (hreads : d.reads = e.reads) (hhint : d.hint = e.hint) :
    d.placed.profile = e.placed.profile := by
  have hclassify : d.classify = e.classify := by
    unfold classify classifyBinding
    rw [hname, hkind, hscope, hhint]
  unfold placed Classified.profile
  rw [hclassify]
  split
  · rw [hname, hkind, hscope, hbound, hreads]
  · rw [hname, hkind, hscope, hbound, hreads]

namespace Outline

/-- An entry at which a declaration is read again. -/
structure Rereads (d : Classified) (entry : Entry) : Prop where
  alike : d.statement.Alike entry.statement
  scope : entry.scope = d.scope
  isComponent : entry.isComponent = d.isComponent
  isLast : d.statement.kind = .returnStmt → (d.kind = .render ↔ entry.isLast = true)

/-- Whether a statement is the last of its body matters for a return only. -/
theorem declaredKind_of_ne_return {s : Statement} (h : s.kind ≠ .returnStmt)
    (setting : Statement.Setting) (scope : Scope) (isLast isLast' : Bool) :
    s.declaredKind setting scope isLast = s.declaredKind setting scope isLast' := by
  unfold Statement.declaredKind
  split <;> first | rfl | contradiction

theorem declaredKind_return {s : Statement} (h : s.kind = .returnStmt)
    (setting : Statement.Setting) (scope : Scope) (isLast : Bool) :
    s.declaredKind setting scope isLast =
      if isLast then .render else .unrecognised "early return" := by
  unfold Statement.declaredKind
  rw [h]

section

variable {setting : Statement.Setting} {declared declared' : List String} {entry entry' : Entry}
  {index : Nat}

theorem Rereads.kind (h : Rereads (read setting declared index entry) entry')
    (declared' : List String) (index' : Nat) :
    (read setting declared' index' entry').kind = (read setting declared index entry).kind := by
  have hcomponent := h.isComponent
  have hlast := h.isLast
  have halike := h.alike
  have hscope := h.scope
  rw [read_isComponent] at hcomponent
  rw [read_scope] at hscope
  rw [read_statement] at halike hlast
  rw [read_kind] at hlast ⊢
  rw [read_kind, hcomponent, hscope, halike.declaredKind]
  cases hc : entry.isComponent with
  | true => rfl
  | false =>
    rw [hc] at hlast
    rw [if_neg Bool.false_ne_true, if_neg Bool.false_ne_true] at *
    by_cases hreturn : entry.statement.kind = .returnStmt
    · have hiff := hlast hreturn
      rw [declaredKind_return hreturn] at hiff ⊢
      rw [declaredKind_return hreturn]
      cases hl : entry.isLast with
      | true =>
        rw [hl] at hiff
        rw [if_pos (hiff.1 rfl)]
        rfl
      | false =>
        rw [hl] at hiff
        have hno : ¬ entry'.isLast = true := fun hyes => absurd (hiff.2 hyes) (by simp)
        rw [if_neg hno]
        rfl
    · exact declaredKind_of_ne_return hreturn _ _ _ _

/-- A declaration that is read again with its name has the same profile. -/
theorem Rereads.profile (h : Rereads (read setting declared index entry) entry')
    (hname : entry'.statement.declaredName (read setting declared index entry).kind =
      (read setting declared index entry).name)
    (hdeclared : ∀ name, declared'.contains name = declared.contains name) (index' : Nat) :
    (read setting declared' index' entry').profile =
      (read setting declared index entry).profile := by
  have hkind := h.kind declared' index'
  have halike := h.alike
  have hscope := h.scope
  rw [read_statement] at halike
  rw [read_scope] at hscope
  rw [toDeclaration_read, toDeclaration_read] at hkind
  rw [toDeclaration_read] at hname
  refine Declaration.profile_placed ?_ hkind hscope halike.boundNames ?_ ?_
  · show entry'.statement.declaredName (declaration setting declared' index' entry').kind = _
    rw [hkind, hname]
  · show entry'.statement.reads.filter _ = entry.statement.reads.filter _
    rw [halike.reads, halike.boundNames]
    exact List.filter_congr fun name _ => by rw [hdeclared]
  · show (entry'.statement.leadingComment.bind _).map _ = _
    rw [halike.leadingComment]
    rfl

end

/-- The arranged declarations are what the fixed unit is read as: no statement before the component
can be one, a return ends the body exactly if it did before, and the names are the same. -/
structure KeepsReading (v : SourceUnit) (arranged : List Classified) : Prop where
  component : ∀ d ∈ (inScope .module arranged).takeWhile (!·.isComponent),
    d.statement.isComponent = false
  last : ∀ d ∈ (inScope .component arranged).getLast?,
    d.statement.kind = .returnStmt → d.kind = .render
  others : ∀ d ∈ (inScope .component arranged).dropLast, d.kind ≠ .render
  names : ∀ k ∈ v.componentIndex?, ∀ p ∈ arranged.zip (entries v k),
    p.2.statement.declaredName p.1.kind = p.1.name

instance (v : SourceUnit) (arranged : List Classified) : Decidable (KeepsReading v arranged) :=
  decidable_of_iff (_ ∧ _ ∧ _ ∧ _)
    ⟨fun h => ⟨h.1, h.2.1, h.2.2.1, h.2.2.2⟩, fun h => ⟨h.component, h.last, h.others, h.names⟩⟩

section

variable {ds : List Classified} {ts : List Statement}

theorem rereads_module (h : List.Forall₂ Statement.MovedTo (ds.map (·.statement)) ts)
    (hds : ∀ d ∈ ds, d.scope = .module ∧ d.isComponent = false)
    (hreturn : ∀ d ∈ ds, d.statement.kind = .returnStmt → d.kind ≠ .render) :
    List.Forall₂ Rereads ds (ts.map moduleEntry) := by
  have hall := (List.forall₂_and_left _ _).2 ⟨fun d hd => And.intro (hds d hd) (hreturn d hd),
    List.forall₂_map_left_iff.1 h⟩
  refine List.forall₂_map_right_iff.2 (hall.imp fun d t ht => ?_)
  obtain ⟨⟨hd, hr⟩, hmoved⟩ := ht
  exact ⟨hmoved.alike, hd.1.symm, hd.2.symm, fun hk => iff_of_false (hr hk) Bool.false_ne_true⟩

theorem bodyEntries_concat (body : List Statement) (s : Statement) :
    bodyEntries (body ++ [s]) =
      (body.map fun t => { statement := t, scope := .component }) ++
        [{ statement := s, scope := .component, isLast := true }] := by
  induction body with
  | nil => rfl
  | cons t body ih =>
    cases body with
    | nil => rfl
    | cons u body =>
      rw [List.cons_append, List.cons_append, bodyEntries, ← List.cons_append, ih]
      · rfl
      · simp

theorem rereads_body (h : List.Forall₂ Statement.MovedTo (ds.map (·.statement)) ts)
    (hds : ∀ d ∈ ds, d.scope = .component ∧ d.isComponent = false)
    (hlast : ∀ d ∈ ds.getLast?, d.statement.kind = .returnStmt → d.kind = .render)
    (hothers : ∀ d ∈ ds.dropLast, d.kind ≠ .render) :
    List.Forall₂ Rereads ds (bodyEntries ts) := by
  rcases List.eq_nil_or_concat' ds with rfl | ⟨init, last, rfl⟩
  · rw [List.forall₂_nil_left_iff.1 h]
    exact .nil
  · rw [List.dropLast_concat] at hothers
    rw [List.forall₂_map_left_iff] at h
    obtain ⟨ts₁, t, ts₂, rfl, h₁, ht, h₂⟩ := Fix.forall₂_append_cons h
    rw [List.forall₂_nil_left_iff.1 h₂, bodyEntries_concat]
    have hd := hds last (by simp)
    refine List.rel_append ?_ (.cons ⟨ht.alike, hd.1.symm, hd.2.symm, fun hk =>
      iff_of_true (hlast last (by simp) hk) rfl⟩ .nil)
    have hall := (List.forall₂_and_left _ _).2
      ⟨fun d hmem => And.intro (hds d (by simp [hmem])) (hothers d hmem), h₁⟩
    refine List.forall₂_map_right_iff.2 (hall.imp fun d u hu => ?_)
    obtain ⟨⟨hd, hr⟩, hmoved⟩ := hu
    exact ⟨hmoved.alike, hd.1.symm, hd.2.symm, fun _ => iff_of_false hr Bool.false_ne_true⟩

end

theorem map_eq_of_forall₂ {α β γ : Type} {f : α → γ} {g : β → γ} {l : List α} {m : List β}
    (h : List.Forall₂ (fun a b => f a = g b) l m) : l.map f = m.map g := by
  rw [← List.forall₂_eq_eq_eq, List.forall₂_map_left_iff, List.forall₂_map_right_iff]
  exact h

section

variable {unit v : SourceUnit} {k : Nat} {propsNames : List String}
  {arranged before body after : List Classified} {d : Classified} {b : Composition}

/-- A member of a reading, as it was read. -/
theorem exists_entry (h : unit.componentIndex? = some k) (hd : d ∈ reading propsNames unit k) :
    ∃ component, unit.statements[k]? = some component ∧
      ∃ i, ∃ entry ∈ entries unit k, d = read (settingOf propsNames component)
        ((entries unit k).flatMap (·.statement.boundNames)) i entry := by
  obtain ⟨before, component, after, rfl, hp⟩ := exists_parts h
  refine ⟨component, ?_, ?_⟩
  · rw [hp.eq, List.getElem?_append_right (Nat.le_refl _), Nat.sub_self]
    rfl
  · rw [reading_eq hp.eq] at hd
    exact exists_of_mem_numbered _ hd

theorem isLast_of_module {entry : Entry} (h : entry ∈ entries unit k)
    (hs : entry.scope = .module) : entry.isLast = false := by
  obtain ⟨⟨s, i⟩, -, h⟩ := List.mem_flatMap.1 h
  dsimp only at h
  split at h
  · rcases List.mem_cons.1 h with rfl | h
    · rfl
    · rw [(of_mem_bodyEntries h).1] at hs
      exact absurd hs (by decide)
  · rw [List.mem_singleton.1 h]

theorem kind_ne_render_of_module (h : unit.componentIndex? = some k)
    (hd : d ∈ reading propsNames unit k) (hscope : d.scope = .module)
    (hreturn : d.statement.kind = .returnStmt) : d.kind ≠ .render := by
  obtain ⟨component, -, i, entry, hentry, rfl⟩ := exists_entry h hd
  rw [read_scope] at hscope
  rw [read_statement] at hreturn
  rw [read_kind, declaredKind_return hreturn, isLast_of_module hentry hscope]
  split
  · nofun
  · nofun

/-- The fixed unit has its component where the arranged declarations have theirs. -/
theorem parts_fixed (hl : Layout arranged before d body after)
    (hc : d.statement.isComponent = true)
    (hmoved : (Composition.ofClassified before d body after).MovedTo b)
    (hv : v.statements = b.statements) (hkeep : KeepsReading v arranged) :
    Parts v b.before { b.component with body := some b.body } b.after := by
  have halike := hmoved.component.alike_with_body (Statement.isSome_body_of_isComponent hc) b.body
  have htake : (inScope .module arranged).takeWhile (!·.isComponent) = before := by
    rw [hl.inScope_module, List.takeWhile_append_of_pos, List.takeWhile_cons_of_neg,
      List.append_nil]
    · simp [hl.isComponent]
    · exact fun e he => by simp [(hl.outside e (List.mem_append_left _ he)).2]
  have hmap : before.map (·.statement.isComponent) = b.before.map (·.isComponent) :=
    map_eq_of_forall₂ ((List.forall₂_map_left_iff.1 hmoved.before).imp fun e t h =>
      h.alike.isComponent.symm)
  refine ⟨hv, halike.isComponent.trans hc, fun t ht => ?_⟩
  have hmem : t.isComponent ∈ before.map (·.statement.isComponent) := by
    rw [hmap]
    exact List.mem_map_of_mem ht
  obtain ⟨e, he, heq⟩ := List.mem_map.1 hmem
  rw [← heq]
  exact hkeep.component e (by rw [htake]; exact he)

/-- Its entries are those at which the arranged declarations are read again. -/
theorem rereads_entries (hl : Layout arranged before d body after)
    (hc : d.statement.isComponent = true)
    (hreturn : ∀ e ∈ arranged, e.scope = .module → e.statement.kind = .returnStmt →
      e.kind ≠ .render)
    (hmoved : (Composition.ofClassified before d body after).MovedTo b)
    (hv : v.statements = b.statements) (hkeep : KeepsReading v arranged) :
    List.Forall₂ Rereads arranged (entries v b.before.length) := by
  have hothers : ∀ e ∈ before ++ after, e.statement.kind = .returnStmt → e.kind ≠ .render := by
    intro e he
    refine hreturn e ?_ (hl.outside e he).1
    rw [hl.eq]
    rcases List.mem_append.1 he with he | he
    · simp [he]
    · simp [he]
  rw [entries_eq (parts_fixed hl hc hmoved hv hkeep).eq, hl.eq]
  refine List.rel_append ?_ (.cons ?_ (List.rel_append ?_ ?_))
  · exact rereads_module hmoved.before (fun e he => hl.outside e (List.mem_append_left _ he))
      fun e he => hothers e (List.mem_append_left _ he)
  · refine ⟨hmoved.component.alike_with_body (Statement.isSome_body_of_isComponent hc) b.body,
      hl.scope.symm, hl.isComponent.symm, fun hk => ?_⟩
    exact absurd hk (Statement.kind_ne_return_of_isComponent hc)
  · refine rereads_body hmoved.body hl.inside ?_ ?_
    · rw [← hl.inScope_component]
      exact hkeep.last
    · rw [← hl.inScope_component]
      exact hkeep.others
  · exact rereads_module hmoved.after (fun e he => hl.outside e (List.mem_append_right _ he))
      fun e he => hothers e (List.mem_append_right _ he)

theorem map_statement_reading (h : unit.componentIndex? = some k) (propsNames : List String) :
    (reading propsNames unit k).map (·.statement) = (entries unit k).map (·.statement) := by
  obtain ⟨before, component, after, rfl, hp⟩ := exists_parts h
  rw [reading_eq hp.eq]
  exact map_numbered _ _ _ _ _ fun i e _ => read_statement _ _ i e

/-- The fixed unit binds the names that the unit binds. -/
theorem boundNames_perm (h : unit.componentIndex? = some k)
    (hperm : arranged.Perm (reading propsNames unit k)) {es : List Entry}
    (hre : List.Forall₂ Rereads arranged es) :
    (es.flatMap (·.statement.boundNames)).Perm
      ((entries unit k).flatMap (·.statement.boundNames)) := by
  have hes : arranged.map (·.statement.boundNames) = es.map (·.statement.boundNames) :=
    map_eq_of_forall₂ (hre.imp fun d e hde => hde.alike.boundNames.symm)
  have hentries := congrArg (List.map Statement.boundNames)
    (map_statement_reading h propsNames)
  rw [List.map_map, List.map_map] at hentries
  rw [List.flatMap_def, List.flatMap_def, ← hes]
  have hflat := (hperm.map (·.statement.boundNames)).flatten
  exact hflat.trans (List.Perm.of_eq (congrArg List.flatten hentries))

/-- If the fix keeps the reading, the declarations of the fixed unit are the arranged ones. -/
theorem map_profile_reading (h : unit.componentIndex? = some k)
    (hc : unit.statements[k]? = some d.statement)
    (hl : Layout arranged before d body after) (hperm : arranged.Perm (reading propsNames unit k))
    (hmoved : (Composition.ofClassified before d body after).MovedTo b)
    (hv : v.statements = b.statements) (hkeep : KeepsReading v arranged) :
    v.componentIndex? = some b.before.length ∧
      (reading propsNames v b.before.length).map Classified.profile =
        arranged.map Classified.profile := by
  have hcomponent : d.statement.isComponent = true := by
    obtain ⟨before, component, after, rfl, hp⟩ := exists_parts h
    rw [hp.eq, List.getElem?_append_right (Nat.le_refl _), Nat.sub_self] at hc
    rw [← Option.some.inj hc]
    exact hp.isComponent
  have hparts := parts_fixed hl hcomponent hmoved hv hkeep
  have hre := rereads_entries hl hcomponent
    (fun e he => kind_ne_render_of_module h (hperm.subset he)) hmoved hv hkeep
  have halike := hmoved.component.alike_with_body
    (Statement.isSome_body_of_isComponent hcomponent) b.body
  have hsetting : settingOf propsNames { b.component with body := some b.body } =
      settingOf propsNames d.statement := by
    unfold settingOf
    rw [halike.name?]
    rfl
  have hdeclared := boundNames_perm h hperm hre
  refine ⟨hparts.componentIndex?, ?_⟩
  rw [reading_eq hparts.eq, hsetting,
    map_numbered _ _ _ _ _ fun i e _ => read_profile _ _ i e]
  refine (map_eq_of_forall₂ ?_).symm
  -- the numbers of the two sequences differ, so they are compared entry by entry
  obtain ⟨hlen, hpairs⟩ := List.forall₂_iff_zip.1 hre
  refine List.forall₂_iff_zip.2 ⟨hlen, fun {e entry'} hpair => ?_⟩
  have hname := hkeep.names _ hparts.componentIndex? _ hpair
  have hrereads := hpairs hpair
  obtain ⟨component, hk, i, entry, -, rfl⟩ :=
    exists_entry h (hperm.subset (List.of_mem_zip hpair).1)
  rw [hc] at hk
  cases hk
  refine (hrereads.profile hname (fun name => ?_) 0).symm
  rw [Bool.eq_iff_iff, List.contains_iff_mem, List.contains_iff_mem]
  exact hdeclared.mem_iff

end

end Outline

open Profile Outline

/-! ## A second fix -/

theorem arranged_reading_eq_iff {unit : SourceUnit} {k : Nat} (h : unit.componentIndex? = some k)
    (options : Options) : (validate options (reading options.propsNames unit k)).arranged =
        reading options.propsNames unit k ↔
      InOrder options ((reading options.propsNames unit k).map Classified.profile) := by
  obtain ⟨before, d, body, after, hl⟩ := exists_layout_reading h options.propsNames
  exact arranged_eq_iff hl (numbered_reading h options.propsNames)
    (pairwise_index_reading h options.propsNames) options

/-- A fix changes nothing exactly when the declarations of the unit are in order. -/
theorem fixed_eq_false_iff (options : Options) (unit : SourceUnit) :
    LintsTo options true unit fun r =>
      (r.fixed = false ↔ ∀ ds, unit.Declares options ds →
        InOrder options (ds.map Classified.profile)) ∧
      (r.fixed = false → fixUnit options unit = .ok unit) := by
  cases h : unit.componentIndex? with
  | none =>
    refine lintsTo_of_skipped h ⟨⟨fun _ ds hds => ?_, fun _ => rfl⟩, fun _ => ?_⟩
    · exact absurd hds (SourceUnit.not_declares h options ds)
    · unfold fixUnit
      rw [lint_eq_skipped h]
      rfl
  | some k =>
    have horder := arranged_reading_eq_iff h options
    refine lintsTo_of_plan? h fun fix hfix => ?_
    simp only [SourceUnit.declares_iff_eq h, forall_eq, checkedResult_fixed]
    rw [← horder, fixUnit_eq_of_plan? h hfix]
    rcases Fix.plan?_unchanged_or (numbered_reading h options.propsNames) (arranged_perm h options)
      with ⟨heq, hplan⟩ | ⟨hne, hplan⟩
    · obtain rfl := Option.some.inj (hfix.symm.trans hplan)
      exact ⟨iff_of_true rfl heq, fun _ => rfl⟩
    · rw [hplan fix hfix]
      exact ⟨iff_of_false Bool.noConfusion hne, Bool.noConfusion⟩

theorem propsSettled_reading {unit : SourceUnit} {k : Nat} (h : unit.componentIndex? = some k)
    (options : Options)
    (ht : PropsTogether ((reading options.propsNames unit k).map Classified.profile)) :
    PropsSettled ((validate options (reading options.propsNames unit k)).arranged.map
      Classified.profile) := by
  obtain ⟨before, d, body, after, hl⟩ := exists_layout_reading h options.propsNames
  exact propsSettled_arranged hl (numbered_reading h options.propsNames) options ht

/-- If a fix keeps the reading of a unit, the fixed unit is in order exactly when its types are
settled. -/
theorem inOrder_fixed_iff {options : Options} {unit v : SourceUnit} {k : Nat} {b : Composition}
    {before body after : List Classified} {d : Classified} (h : unit.componentIndex? = some k)
    (hl : Layout (validate options (reading options.propsNames unit k)).arranged before d body
      after)
    (hc : unit.statements[k]? = some d.statement)
    (hmoved : (Composition.ofClassified before d body after).MovedTo b)
    (hv : v.statements = b.statements)
    (hkeep : KeepsReading v (validate options (reading options.propsNames unit k)).arranged) :
    (∀ es, v.Declares options es → InOrder options (es.map Classified.profile)) ↔
      PropsSettled ((validate options (reading options.propsNames unit k)).arranged.map
        Classified.profile) := by
  obtain ⟨hindex, hprofiles⟩ :=
    map_profile_reading h hc hl (arranged_perm h options) hmoved hv hkeep
  simp only [SourceUnit.declares_iff_eq hindex, forall_eq, hprofiles]
  obtain ⟨before, d, body, after, hlay⟩ := exists_layout_reading h options.propsNames
  exact inOrder_arranged_iff hlay (numbered_reading h options.propsNames) options

/-- A second fix changes nothing exactly when the fixed unit is in order. If the fix keeps the
reading, that is when the types are settled, and they are when all props types stand in one
container. -/
theorem fix_idempotent_iff (options : Options) (unit : SourceUnit)
    (hb : ¬ Blocked options true unit) :
    ∃ v r, fixUnit options unit = .ok v ∧ lint options true v = .ok r ∧
      (r.fixed = false → fixUnit options v = .ok v) ∧
      (r.fixed = false ↔ ∀ ds, v.Declares options ds →
        InOrder options (ds.map Classified.profile)) ∧
      ∀ ds, unit.Declares options ds → KeepsReading v (validate options ds).arranged →
        (r.fixed = false ↔
          PropsSettled ((validate options ds).arranged.map Classified.profile)) ∧
        (PropsTogether (ds.map Classified.profile) → r.fixed = false) := by
  cases h : unit.componentIndex? with
  | none =>
    obtain ⟨r, hr, hiff, hfix⟩ := (fixed_eq_false_iff options unit).gives hb
    have hf : r.fixed = false := hiff.2 fun ds hds => absurd hds (unit.not_declares h options ds)
    exact ⟨unit, r, hfix hf, hr, hfix, hiff, fun ds hds =>
      absurd hds (unit.not_declares h options ds)⟩
  | some k =>
    obtain ⟨before, d, body, after, hl, -, hc, hplanned⟩ := exists_layout_arranged h options
    obtain ⟨fix, hplan⟩ := exists_plan? h hb
    obtain ⟨b, hmoved, hv, -⟩ := (hplanned fix hplan).exists_movedTo
    obtain ⟨r, hr, hiff, hfix⟩ :=
      (fixed_eq_false_iff options fix.unit).gives ((hplanned fix hplan).not_blocked hb)
    refine ⟨_, r, fixUnit_eq_of_plan? h hplan, hr, hfix, hiff, fun ds hds hkeep => ?_⟩
    · rw [(SourceUnit.declares_iff_eq h).1 hds] at hkeep ⊢
      have hsettled := hiff.trans (inOrder_fixed_iff h hl hc hmoved hv hkeep)
      exact ⟨hsettled, fun ht => hsettled.2 (propsSettled_reading h options ht)⟩

/-- The fix of this unit keeps the reading, and no type of it is a props type. -/
theorem fix_lateImport_idempotent : ∃ v r, fixUnit .standard .lateImport = .ok v ∧
    lint .standard true v = .ok r ∧ r.fixed = false ∧ fixUnit .standard v = .ok v := by
  have hc : SourceUnit.lateImport.componentIndex? = some 0 := by decide
  have hb : ¬ Blocked .standard true .lateImport := not_blocked_of_text rfl .standard true
  obtain ⟨v, r, hv, hr, hfix, -, hkept⟩ := fix_idempotent_iff .standard .lateImport hb
  have hplan := fixUnit_eq_of_plan? hc (plan?_eq_fixOf hc hb)
  have hkeep : KeepsReading v (validate .standard (reading ["Props"] .lateImport 0)).arranged := by
    rw [← Except.ok.inj (hplan.symm.trans hv)]
    decide +kernel
  have hprops : PropsTogether ((reading ["Props"] .lateImport 0).map Classified.profile) := by
    unfold PropsTogether
    decide +kernel
  have hf := (hkept _ (declares_reading hc .standard) hkeep).2 hprops
  exact ⟨v, r, hv, hr, hf, hfix hf⟩

/-- Two functions that can both be the component. -/
def SourceUnit.twoComponents : SourceUnit where
  name := "a"
  statements :=
    [{ kind := .functionStmt, span := { start := 0, stop := 1 }, names := ["App"]
       body := some [] },
     { kind := .functionStmt, span := { start := 2, stop := 3 }, names := ["Other"]
       body := some [] }]

/-- The fix puts the other function, a constant, before the component, and then takes it for the
component: every fix swaps the two. -/
theorem fix_twoComponents_swaps : ∃ v w r, fixUnit .standard .twoComponents = .ok v ∧
    fixUnit .standard v = .ok w ∧ lint .standard true v = .ok r ∧ r.fixed = true ∧
    v.statements.map (·.name?) = [some "Other", some "App"] ∧
    w.statements.map (·.name?) = [some "App", some "Other"] := by
  have hc : SourceUnit.twoComponents.componentIndex? = some 0 := by decide
  have hv := fixUnit_eq_of_plan? hc (plan?_eq_fixOf hc (not_blocked_of_none rfl .standard true))
  have hc' : (fixOf .standard .twoComponents 0).unit.componentIndex? = some 0 := by
    decide +kernel
  have hsource : (fixOf .standard .twoComponents 0).unit.source = none := by decide +kernel
  have hplan := plan?_eq_fixOf hc' (not_blocked_of_none hsource .standard true)
  refine ⟨_, _, _, hv, fixUnit_eq_of_plan? hc' hplan, lint_eq_of_plan? hc' hplan, ?_, ?_, ?_⟩
  · decide +kernel
  · decide +kernel
  · decide +kernel

end ComponentLint
