import ComponentLint.Proofs.Fix.Source
/-
  The source of a unit is rewritten as a whole or not at all. A rewrite needs four things: a source,
  slots of the module that tile it, slots of the body that tile the component, and new bytes that
  are a text (`Rewritable`). With all of them the fixed unit has the new source, in which every
  statement stands at its text. If one is missing, the source and the offsets of all statements stay
  as they are, whichever one it is and however late it shows, and the fix has changed the order
  only. This is not so for a source without bytes: there the whole fix fails, and not even the order
  is changed.
-/

namespace ComponentLint

/-- The slots of statements lie between two offsets, one behind the other. -/
structure SlotsInTurn (start stop : Int) (ss : List Statement) : Prop where
  inside : ∀ s ∈ ss, start ≤ s.slotStart ∧ s.slotStart ≤ s.span.stop ∧ s.span.stop ≤ stop
  inTurn : ss.Pairwise fun s t => s.span.stop ≤ t.slotStart

theorem slotsTile_iff {start stop : Int} {ss : List Statement} :
    slotsTile start stop ss = true ↔ SlotsInTurn start stop ss := by
  induction ss generalizing start with
  | nil => exact iff_of_true rfl ⟨by simp, .nil⟩
  | cons s ss ih =>
    rw [slotsTile_cons, ih]
    constructor
    · intro h
      obtain ⟨h₁, h₂, h₃, hrest⟩ := h
      refine ⟨fun t ht => ?_, .cons (fun t ht => (hrest.inside t ht).1) hrest.inTurn⟩
      rcases List.mem_cons.1 ht with rfl | ht
      · exact ⟨h₁, h₃, h₂⟩
      · have := hrest.inside t ht
        omega
    · intro h
      obtain ⟨h₁, h₂, h₃⟩ := h.inside s List.mem_cons_self
      obtain ⟨hs, hrest⟩ := List.pairwise_cons.1 h.inTurn
      refine ⟨h₁, h₃, h₂, fun t ht => ?_, hrest⟩
      exact ⟨hs t ht, (h.inside t (List.mem_cons_of_mem s ht)).2⟩

theorem Bytes.exists_toText?_iff {bytes : Bytes} :
    (∃ text, bytes.toText? = some text) ↔ ∃ text, ofText text = bytes := by
  constructor
  · intro h
    obtain ⟨text, htext⟩ := h
    exact ⟨text, ofText_of_toText? htext⟩
  · intro h
    obtain ⟨text, rfl⟩ := h
    exact ⟨text, toText?_ofText text⟩

namespace Fix

/-- What it takes to rewrite a source in an order, and the new source. -/
structure Rewritable (unit : SourceUnit) (order : Composition) (source text : String) : Prop where
  known : unit.source = some (.text source)
  module : SlotsInTurn 0 (Bytes.ofText source).length unit.statements
  body : SlotsInTurn order.component.span.start order.component.span.stop
    order.component.bodyStatements
  bytes : Bytes.ofText text = moduleText (Bytes.ofText source) unit order

/-- The source has been rewritten, and all statements with it. -/
structure SourceRewritten (unit : SourceUnit) (order : Composition) (source text : String)
    (result : LintResult) (fixed : SourceUnit) : Prop where
  fixedSource : result.fixedSource = some (.text text)
  unitSource : fixed.source = result.fixedSource
  unitName : fixed.name = unit.name
  diagnostics : result.diagnostics = []
  statements : ∃ moved, fixed.statements = moved.statements ∧ order.MovedTo moved ∧
    StandsIn (Bytes.ofText source) (Bytes.ofText text) order moved

/-- The unit has the statements in order, each as it was, and nothing else is new. That its source
was left is told if it has one. -/
structure SourceLeft (unit : SourceUnit) (order : Composition) (result : LintResult)
    (fixed : SourceUnit) : Prop where
  fixedSource : result.fixedSource = none
  fixed : fixed = { unit with statements := order.statements }
  diagnostics : result.diagnostics.map (·.kind) =
    if unit.source.isSome then [.sourceKept] else []

section

variable {unit : SourceUnit} {ds before body after : List Classified} {d : Classified}
  {a : Composition} {source : String}

/-- Splicing fails exactly when something that it takes is missing. -/
theorem exists_splice_eq_error_iff (hl : Layout ds before d body after)
    (ha : a = .ofClassified before d body after) (hr : a.Reorders unit)
    (hs : unit.source = some (.text source)) :
    (∃ failure, splice unit (.ofText source) d.statement (before ++ d :: after) body =
      .error failure) ↔ ¬ ∃ text, Rewritable unit a source text := by
  obtain ⟨offsets, offset, offsets', ho⟩ := exists_offsets (Bytes.ofText source) hr
  rw [splice_eq hl ha ho]
  split
  · next htile =>
    refine iff_of_true ⟨_, rfl⟩ fun hx => ?_
    obtain ⟨text, h⟩ := hx
    rw [slotsTile_iff.2 h.module, slotsTile_iff.2 h.body] at htile
    exact absurd htile (by simp)
  · next htile =>
    simp only [Bool.not_eq_true', Bool.not_eq_false, Bool.and_eq_true, slotsTile_iff] at htile
    have hrewritable : (∃ text, Rewritable unit a source text) ↔
        ∃ text, (moduleText (Bytes.ofText source) unit a).toText? = some text := by
      rw [Bytes.exists_toText?_iff]
      exact exists_congr fun text =>
        ⟨fun h => h.bytes, fun h => ⟨hs, htile.1, htile.2, h⟩⟩
    rw [hrewritable]
    split
    · next hnone => exact iff_of_true ⟨_, rfl⟩ (by simp [hnone])
    · next text htext => exact iff_of_false (by simp) (not_not_intro ⟨text, htext⟩)

/-- A fix that leaves the source has failed to splice it. -/
theorem exists_splice_of_plan {arranged : List Classified}
    (hd : ds.find? (·.isComponent) = some d) {v : SourceUnit} {failure : SpliceFailure}
    (h : plan? unit ds arranged = some (.sourceKept v failure)) :
    ∃ source, unit.source = some (.text source) ∧ splice unit (.ofText source) d.statement
      (inScope .module arranged) (inScope .component arranged) = .error failure := by
  unfold plan? at h
  split at h
  · exact absurd h (by simp)
  · dsimp only at h
    rw [hd] at h
    split at h
    · next component source hc hs =>
      obtain ⟨bytes, hbytes, hspliced⟩ := Option.map_eq_some_iff.1 h
      cases source with
      | unpaired value => exact absurd hbytes (by simp [Bytes.ofSource?])
      | text value =>
        rw [← Option.some.inj hbytes, ← Option.some.inj hc] at hspliced
        split at hspliced
        · exact absurd hspliced (by simp)
        · next hfailure =>
          rw [Fix.sourceKept.injEq] at hspliced
          exact ⟨value, hs, hspliced.2 ▸ hfailure⟩
    · exact absurd h (by simp)

/-- What a fix that changes a unit does to its source and its statements, if it leaves the source
only for want of something that a rewrite takes. -/
theorem Planned.rewritten_or_left {fix : Fix} (h : Planned unit a fix) (hchanged : fix.changed = true)
    (hleft : ∀ v failure, fix = .sourceKept v failure → ∃ source,
      unit.source = some (.text source) ∧ ¬ ∃ text, Rewritable unit a source text)
    {result : LintResult} (hsource : result.fixedSource = fix.source)
    (hdiagnostics : result.diagnostics = fix.diagnostics unit) :
    (∃ source text, Rewritable unit a source text ∧
        SourceRewritten unit a source text result fix.unit) ∨
      ((¬ ∃ source text, Rewritable unit a source text) ∧ SourceLeft unit a result fix.unit) := by
  cases h with
  | unchanged => exact absurd hchanged (by simp [changed])
  | reordered hnone =>
    refine Or.inr ⟨?_, hsource, rfl, by rw [hdiagnostics, hnone]; rfl⟩
    rintro ⟨source, text, h⟩
    exact Option.some_ne_none _ (h.known.symm.trans hnone)
  | sourceKept _ failure =>
    obtain ⟨source, hknown, hno⟩ := hleft _ failure rfl
    refine Or.inr ⟨?_, hsource, rfl, by rw [hdiagnostics, hknown]; rfl⟩
    rintro ⟨source', text, h⟩
    cases hknown.symm.trans h.known
    exact hno ⟨text, h⟩
  | spliced source text moved hknown htiled htext hmoved hstands =>
    refine Or.inl ⟨source, text, ⟨hknown, slotsTile_iff.1 htiled.module,
      slotsTile_iff.1 htiled.inner, htext⟩, hsource, hsource.symm, rfl, hdiagnostics, ?_⟩
    exact ⟨moved, rfl, hmoved, hstands⟩

end

end Fix

theorem Outline.find?_isComponent_reading {unit : SourceUnit} {k : Nat}
    (h : unit.componentIndex? = some k) (propsNames : List String) :
    ∃ d, (reading propsNames unit k).find? (·.isComponent) = some d ∧
      unit.statements[k]? = some d.statement := by
  obtain ⟨before, component, after, rfl, hp⟩ := exists_parts h
  obtain ⟨ds₁, d, body, ds₂, hl, -, hd, -, -⟩ := layout_reading hp propsNames
  refine ⟨d, hl.find?_isComponent, ?_⟩
  rw [hp.eq, hd, List.getElem?_append_right (Nat.le_refl _), Nat.sub_self]
  rfl

open ComponentLint.Fix

/-- A fix that moves something fails if the source has no bytes. Otherwise it rewrites the source
with all statements, if it has what that takes, or else leaves the source and every statement as
they are, up to the order. -/
theorem source_rewritten_left_or_refused (options : Options) (unit : SourceUnit)
    (ds : List Classified) (hds : unit.Declares options ds)
    (hmoves : (validate options ds).arranged.map (·.index) ≠ List.range ds.length) :
    ∃ order, Target options unit order ∧
      (((∃ text, unit.source = some (.unpaired text)) ∧
          lint options true unit = .error .unencodable) ∨
        ((∀ text, unit.source ≠ some (.unpaired text)) ∧ ∃ result fixed,
          lint options true unit = .ok result ∧ result.fixedUnit = some fixed ∧
          result.fixed = true ∧
          ((∃ source text, Rewritable unit order source text ∧
              SourceRewritten unit order source text result fixed) ∨
            ((¬ ∃ source text, Rewritable unit order source text) ∧
              SourceLeft unit order result fixed)))) := by
  obtain ⟨k, hk, rfl⟩ := hds.exists_reading
  obtain ⟨before, d, body, after, hl, hreorders, hd, hplanned⟩ :=
    Outline.exists_layout_arranged hk options
  obtain ⟨d', hfind, hd'⟩ := Outline.find?_isComponent_reading hk options.propsNames
  have hcomponent : d'.statement = d.statement := Option.some.inj (hd'.symm.trans hd)
  refine ⟨.ofClassified before d body after, ⟨⟨k, hk, hd⟩, ⟨_, hds,
    Composition.follows_ofClassified hl⟩, hreorders⟩, ?_⟩
  have hne : (validate options (Outline.reading options.propsNames unit k)).arranged ≠
      Outline.reading options.propsNames unit k := by
    intro hsame
    rw [hsame, Outline.map_index_reading hk] at hmoves
    exact hmoves rfl
  by_cases hsource : ∃ text, unit.source = some (.unpaired text)
  · exact Or.inl ⟨hsource, lint_of_blocked ⟨rfl, hsource, _, hds, hne⟩⟩
  · obtain ⟨fix, hfix⟩ := exists_plan? hk fun hb : Blocked options true unit => hsource hb.source
    have hchanged : fix.changed = true :=
      ((plan?_unchanged_or (Outline.numbered_reading hk options.propsNames)
        (Outline.arranged_perm hk options)).resolve_left fun hx => hne hx.1).2 fix hfix
    refine Or.inr ⟨not_exists.1 hsource, _, _, lint_eq_of_plan? hk hfix, rfl, hchanged,
      (hplanned fix hfix).rewritten_or_left hchanged (fun v failure hkept => ?_) rfl rfl⟩
    rw [hkept] at hfix
    obtain ⟨source, hknown, hsplice⟩ := exists_splice_of_plan hfind hfix
    rw [hcomponent, hl.inScope_module, hl.inScope_component] at hsplice
    exact ⟨source, hknown,
      (exists_splice_eq_error_iff hl rfl hreorders hknown).1 ⟨failure, hsplice⟩⟩

/-- The unit with an import behind its component, with a source that ends before the first slot
does. -/
def SourceUnit.cutOff : SourceUnit :=
  { SourceUnit.lateImport with source := some "function" }

/-- The same statements are moved with their source where they tile it, and without it where they do
not. -/
theorem lateImport_rewritten_cutOff_left :
    (∃ result fixed order, lint .standard true .lateImport = .ok result ∧
      result.fixedUnit = some fixed ∧ Target .standard .lateImport order ∧
      ∃ source text, Rewritable .lateImport order source text ∧
        SourceRewritten .lateImport order source text result fixed) ∧
    ∃ result fixed order, lint .standard true .cutOff = .ok result ∧
      result.fixedUnit = some fixed ∧ Target .standard .cutOff order ∧
      (¬ ∃ source text, Rewritable .cutOff order source text) ∧
      SourceLeft .cutOff order result fixed := by
  constructor
  · have hc : SourceUnit.lateImport.componentIndex? = some 0 := by decide
    have hplan := plan?_eq_fixOf hc (not_blocked_of_text rfl .standard true)
    obtain ⟨order, htarget, hout⟩ := source_rewritten_left_or_refused .standard .lateImport _
      (declares_reading hc .standard) (by decide +kernel)
    obtain ⟨-, result, fixed, hr, hfixed, -, hout⟩ := hout.resolve_left fun h => by
      obtain ⟨text, htext⟩ := h.1
      simp [SourceUnit.lateImport] at htext
    refine ⟨result, fixed, order, hr, hfixed, htarget, hout.resolve_right fun h => ?_⟩
    have hnone := h.2.fixedSource
    rw [← Except.ok.inj ((lint_eq_of_plan? hc hplan).symm.trans hr)] at hnone
    revert hnone
    decide +kernel
  · have hc : SourceUnit.cutOff.componentIndex? = some 0 := by decide
    have hplan := plan?_eq_fixOf hc (not_blocked_of_text rfl .standard true)
    obtain ⟨order, htarget, hout⟩ := source_rewritten_left_or_refused .standard .cutOff _
      (declares_reading hc .standard) (by decide +kernel)
    obtain ⟨-, result, fixed, hr, hfixed, -, hout⟩ := hout.resolve_left fun h => by
      obtain ⟨text, htext⟩ := h.1
      simp [SourceUnit.cutOff] at htext
    refine ⟨result, fixed, order, hr, hfixed, htarget, hout.resolve_left ?_⟩
    rintro ⟨source, text, -, h⟩
    have hnil := h.diagnostics
    rw [← Except.ok.inj ((lint_eq_of_plan? hc hplan).symm.trans hr)] at hnil
    revert hnil
    decide +kernel

/-- In this unit there is something to move, and the fix gives neither of the two: it fails. -/
theorem unpairedSource_not_left : SourceUnit.unpairedSource.componentIndex? = some 0 ∧
    (∃ ds, SourceUnit.unpairedSource.Declares .standard ds ∧
      (validate .standard ds).arranged.map (·.index) ≠ List.range ds.length) ∧
    (∀ order source text, ¬ Rewritable .unpairedSource order source text) ∧
    ¬ ∃ result fixed order, lint .standard true .unpairedSource = .ok result ∧
      SourceLeft .unpairedSource order result fixed := by
  have hc : SourceUnit.unpairedSource.componentIndex? = some 0 := by decide
  refine ⟨hc, ⟨_, declares_reading hc .standard, by decide +kernel⟩, fun order source text h => ?_,
    ?_⟩
  · have hknown := h.known
    simp [SourceUnit.unpairedSource] at hknown
  · rintro ⟨result, fixed, order, hr, -⟩
    rw [lint_of_blocked blocked_unpairedSource] at hr
    exact absurd hr (by simp)

end ComponentLint
