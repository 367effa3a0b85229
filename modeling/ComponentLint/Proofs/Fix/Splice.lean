import ComponentLint.Fix.Basic
import ComponentLint.Proofs.Arrangement.Container
import ComponentLint.Proofs.Fix.Slots
/-
  Splicing the source of a unit. The gaps of the module and of the component's body stay where they
  are and the texts of the slots change places, so the new bytes are the old ones in another order
  (`moduleText_perm`). Splicing places the statements at the offsets of their texts (`splice_eq`),
  and there each stands at its text and the slots tile again (`standsIn_placedAt`).
-/

namespace ComponentLint

/-- The statement with other offsets. -/
def Statement.MovedTo (s t : Statement) : Prop :=
  t = { s with span := t.span, leadingStart := t.leadingStart }

/-- The statement stands at a text of the bytes, and lies in its slot as before. -/
structure Statement.StandsAt (s : Statement) (bytes text : Bytes) (t : Statement) : Prop where
  slice : bytes.slice t.slotStart t.span.stop = text
  kept : s.SlotKept t

/-- The statements of a module around its component, and those of the component's body. -/
structure Composition where
  before : List Statement
  component : Statement
  body : List Statement
  after : List Statement

namespace Composition

/-- The statements of the module, the component with the body. -/
def statements (a : Composition) : List Statement :=
  a.before ++ { a.component with body := some a.body } :: a.after

/-- It has the statements of a unit, in any order. -/
structure Reorders (a : Composition) (unit : SourceUnit) : Prop where
  module : (a.before ++ a.component :: a.after).Perm unit.statements
  body : a.body.Perm a.component.bodyStatements

/-- Every statement has been moved, and stands where it stood among the others. -/
structure MovedTo (a b : Composition) : Prop where
  before : List.Forall₂ Statement.MovedTo a.before b.before
  component : a.component.MovedTo b.component
  body : List.Forall₂ Statement.MovedTo a.body b.body
  after : List.Forall₂ Statement.MovedTo a.after b.after

def ofClassified (before : List Classified) (component : Classified)
    (body after : List Classified) : Composition :=
  ⟨before.map (·.statement), component.statement, body.map (·.statement), after.map (·.statement)⟩

end Composition

namespace Fix

section

variable (source : Bytes)

/-- The bytes around the slots of the module. -/
def moduleGaps (unit : SourceUnit) : List Bytes :=
  gaps source 0 source.length unit.statements

/-- The bytes of a component around the slots of its body. -/
def innerGaps (component : Statement) : List Bytes :=
  gaps source component.slotStart component.span.stop component.bodyStatements

/-- The text of a component with a body in another order. -/
def componentText (component : Statement) (body : List Statement) : Bytes :=
  interleave (innerGaps source component) (body.map (·.slotText source))

/-- The texts of the slots of a module. -/
def moduleTexts (a : Composition) : List Bytes :=
  a.before.map (·.slotText source) ++ componentText source a.component a.body ::
    a.after.map (·.slotText source)

/-- The text of a module with its statements in another order. -/
def moduleText (unit : SourceUnit) (a : Composition) : Bytes :=
  interleave (moduleGaps source unit) (moduleTexts source a)

/-- The slots of the module tile the source, and those of the body the component. -/
structure Tiled (unit : SourceUnit) (component : Statement) : Prop where
  mem : component ∈ unit.statements
  module : slotsTile 0 source.length unit.statements = true
  inner : slotsTile component.span.start component.span.stop component.bodyStatements = true

end

theorem length_moduleGaps (source : Bytes) {unit : SourceUnit} {a : Composition}
    (ha : a.Reorders unit) :
    (moduleGaps source unit).length = (moduleTexts source a).length + 1 := by
  rw [moduleGaps, length_gaps, ← ha.module.length_eq, moduleTexts]
  simp

theorem length_innerGaps (source : Bytes) {unit : SourceUnit} {a : Composition}
    (ha : a.Reorders unit) :
    (innerGaps source a.component).length = (a.body.map (·.slotText source)).length + 1 := by
  rw [innerGaps, length_gaps, List.length_map, ha.body.length_eq]

namespace Tiled

variable {source : Bytes} {unit : SourceUnit} {component : Statement}

theorem length_slotText (h : Tiled source unit component) {s : Statement}
    (hs : s ∈ unit.statements) :
    ((s.slotText source).length : Int) = s.span.stop - s.slotStart := by
  obtain ⟨h₁, h₂, h₃⟩ := bounds_of_slotsTile h.module hs
  exact Bytes.length_slice source h₁ h₂ h₃

theorem length_slotText_inner (h : Tiled source unit component) {s : Statement}
    (hs : s ∈ component.bodyStatements) :
    ((s.slotText source).length : Int) = s.span.stop - s.slotStart := by
  obtain ⟨h₁, h₂, h₃⟩ := bounds_of_slotsTile h.module h.mem
  obtain ⟨h₄, h₅, h₆⟩ := bounds_of_slotsTile h.inner hs
  have := component.slotStart_le_start
  exact Bytes.length_slice source (by omega) h₅ (by omega)

theorem moduleGaps_eq (h : Tiled source unit component) :
    interleave (moduleGaps source unit) (unit.statements.map (·.slotText source)) = source := by
  rw [moduleGaps, interleave_gaps source (Int.le_refl 0) h.module, Bytes.slice_zero_length]

theorem innerGaps_eq (h : Tiled source unit component) :
    interleave (innerGaps source component) (component.bodyStatements.map (·.slotText source)) =
      component.slotText source :=
  interleave_gaps source (bounds_of_slotsTile h.module h.mem).1
    (slotsTile_of_le component.slotStart_le_start h.inner)

theorem componentText_perm (h : Tiled source unit component) {body : List Statement}
    (hb : body.Perm component.bodyStatements) :
    (componentText source component body).Perm (component.slotText source) := by
  rw [← h.innerGaps_eq]
  refine interleave_perm_interleave ?_ ?_ (hb.map _).flatten
  · rw [innerGaps, length_gaps, List.length_map, hb.length_eq]
  · rw [innerGaps, length_gaps, List.length_map]

theorem moduleText_perm {a : Composition} (h : Tiled source unit a.component)
    (ha : a.Reorders unit) : (moduleText source unit a).Perm source := by
  have hmap : (moduleGaps source unit).length =
      ((a.before ++ a.component :: a.after).map (·.slotText source)).length + 1 := by
    rw [moduleGaps, length_gaps, List.length_map, ha.module.length_eq]
  have hbytes : (moduleText source unit a).Perm (interleave (moduleGaps source unit)
      ((a.before ++ a.component :: a.after).map (·.slotText source))) := by
    refine interleave_perm_interleave (length_moduleGaps source ha) hmap ?_
    rw [moduleTexts, List.map_append, List.map_cons, List.flatten_append, List.flatten_append,
      List.flatten_cons, List.flatten_cons]
    exact ((h.componentText_perm ha.body).append_right _).append_left _
  refine hbytes.trans ?_
  conv_rhs => rw [← h.moduleGaps_eq]
  refine interleave_perm_interleave hmap ?_ (ha.module.map _).flatten
  rw [moduleGaps, length_gaps, List.length_map]

end Tiled

/-! ## The spliced unit -/

section

variable {α β : Type} {p : α → Bool} {l₁ l₂ : List α} {a : α}

/-- Mapping a list with one element of a kind. -/
theorem map_if_unique (f g : α → β) (ho : ∀ b ∈ l₁ ++ l₂, p b = false) (ha : p a = true) :
    ((l₁ ++ a :: l₂).map fun b => if p b then f b else g b) = l₁.map g ++ f a :: l₂.map g := by
  have hkeep : ∀ l : List α, (∀ b ∈ l, p b = false) →
      (l.map fun b => if p b then f b else g b) = l.map g := fun l hl =>
    List.map_congr_left fun b hb => by simp [hl b hb]
  rw [List.map_append, List.map_cons, hkeep l₁ fun b hb => ho b (List.mem_append_left _ hb),
    hkeep l₂ fun b hb => ho b (List.mem_append_right _ hb), ha]
  rfl

theorem find?_unique (ho : ∀ b ∈ l₁ ++ l₂, p b = false) (ha : p a = true) :
    (l₁ ++ a :: l₂).find? p = some a := by
  rw [List.find?_append, List.find?_eq_none.2, Option.none_or, List.find?_cons_of_pos ha]
  intro b hb
  simp [ho b (List.mem_append_left _ hb)]

end

theorem forall₂_append_cons {α β : Type} {R : α → β → Prop} {l₁ l₂ : List α} {a : α}
    {m : List β} (h : List.Forall₂ R (l₁ ++ a :: l₂) m) :
    ∃ m₁ b m₂, m = m₁ ++ b :: m₂ ∧ List.Forall₂ R l₁ m₁ ∧ R a b ∧ List.Forall₂ R l₂ m₂ := by
  induction l₁ generalizing m with
  | nil =>
    obtain ⟨b, m₂, hb, h₂, rfl⟩ := List.forall₂_cons_left_iff.1 h
    exact ⟨[], b, m₂, rfl, .nil, hb, h₂⟩
  | cons c l₁ ih =>
    obtain ⟨e, m', he, h', rfl⟩ := List.forall₂_cons_left_iff.1 h
    obtain ⟨m₁, b, m₂, rfl, h₁, hb, h₂⟩ := ih h'
    exact ⟨e :: m₁, b, m₂, rfl, .cons he h₁, hb, h₂⟩

theorem placed_map_statement (lineFeeds : List Int) (ds : List Classified) (offsets : List Int) :
    placed lineFeeds (ds.map (·.statement)) offsets =
      (ds.zip offsets).map fun e => e.1.statement.relocated lineFeeds e.2 := by
  unfold placed
  rw [List.zip_map_left, List.map_map]
  rfl

/-- A composition with its statements at the offsets of their texts. -/
def placedAt (bytes : Bytes) (lineFeeds : List Int) (a : Composition) (offsets : List Int)
    (offset : Int) (offsets' : List Int) : Composition :=
  { before := placed lineFeeds a.before offsets
    component := a.component.relocated lineFeeds offset
    body := placed lineFeeds a.body
      (textOffsets offset (innerGaps bytes a.component) (a.body.map (·.slotText bytes)))
    after := placed lineFeeds a.after offsets' }

/-- The offsets of the texts of a module, around that of its component. -/
structure Offsets (bytes : Bytes) (unit : SourceUnit) (a : Composition) (offsets : List Int)
    (offset : Int) (offsets' : List Int) : Prop where
  eq : textOffsets 0 (moduleGaps bytes unit) (moduleTexts bytes a) = offsets ++ offset :: offsets'
  before : List.Forall₂ (fun s o => (moduleText bytes unit a).HasAt o (s.slotText bytes))
    a.before offsets
  component : (moduleText bytes unit a).HasAt offset (componentText bytes a.component a.body)
  after : List.Forall₂ (fun s o => (moduleText bytes unit a).HasAt o (s.slotText bytes))
    a.after offsets'

theorem exists_offsets (bytes : Bytes) {unit : SourceUnit} {a : Composition}
    (ha : a.Reorders unit) :
    ∃ offsets offset offsets', Offsets bytes unit a offsets offset offsets' := by
  have hall := hasAt_textOffsets (length_moduleGaps bytes ha)
    (Bytes.hasAt_zero (moduleText bytes unit a))
  obtain ⟨offsets, offset, offsets', hsplit, hbefore, hcomponent, hafter⟩ :=
    forall₂_append_cons hall
  exact ⟨offsets, offset, offsets', hsplit, List.forall₂_map_left_iff.1 hbefore, hcomponent,
    List.forall₂_map_left_iff.1 hafter⟩

section

variable {ds before body after : List Classified} {d : Classified} {a : Composition}

theorem componentText_eq (ha : a = .ofClassified before d body after) (bytes : Bytes) :
    interleave (gaps bytes d.statement.slotStart d.statement.span.stop d.statement.bodyStatements)
      (body.map (·.statement.slotText bytes)) = componentText bytes a.component a.body := by
  rw [ha, componentText, Composition.ofClassified, List.map_map]
  rfl

theorem moduleTexts_eq (hl : Layout ds before d body after)
    (ha : a = .ofClassified before d body after) (bytes : Bytes) :
    ((before ++ d :: after).map fun e => if e.isComponent then
      componentText bytes a.component a.body else e.statement.slotText bytes) =
        moduleTexts bytes a := by
  have houtside : ∀ e ∈ before ++ after, e.isComponent = false := fun e he => (hl.outside e he).2
  rw [map_if_unique _ _ houtside hl.isComponent, moduleTexts, ha, Composition.ofClassified,
    List.map_map, List.map_map]
  rfl

/-- Splicing places the statements of a composition at the offsets of their texts. -/
theorem splice_eq {unit : SourceUnit} {bytes : Bytes} (hl : Layout ds before d body after)
    (ha : a = .ofClassified before d body after) {offsets offsets' : List Int} {offset : Int}
    (ho : Offsets bytes unit a offsets offset offsets') :
    splice unit bytes d.statement (before ++ d :: after) body =
      if !(slotsTile 0 bytes.length unit.statements && slotsTile a.component.span.start
          a.component.span.stop a.component.bodyStatements) then .error .notTiled
      else match (moduleText bytes unit a).toText? with
        | none => .error .splitsCharacter
        | some text => .ok { unit with
            statements := (placedAt bytes ((moduleText bytes unit a).lineFeeds 0) a offsets offset
              offsets').statements
            source := some (.text text) } := by
  have hzip : (before ++ d :: after).zip (textOffsets 0 (gaps bytes 0 bytes.length
      unit.statements) (moduleTexts bytes a)) =
      before.zip offsets ++ (d, offset) :: after.zip offsets' := by
    have hlen := ho.before.length_eq
    rw [ha, Composition.ofClassified, List.length_map] at hlen
    rw [← moduleGaps, ho.eq, List.zip_append hlen, List.zip_cons_cons]
  have hothers : ∀ e ∈ before.zip offsets ++ after.zip offsets', e.1.isComponent = false := by
    intro e he
    refine (hl.outside e.1 ?_).2
    rcases List.mem_append.1 he with he | he
    · exact List.mem_append_left _ (List.of_mem_zip he).1
    · exact List.mem_append_right _ (List.of_mem_zip he).1
  unfold splice
  dsimp only
  rw [componentText_eq ha, moduleTexts_eq hl ha, hzip, find?_unique hothers hl.isComponent,
    map_if_unique _ _ hothers hl.isComponent]
  unfold placedAt Composition.statements
  rw [ha]
  unfold Composition.ofClassified
  dsimp only
  rw [placed_map_statement, placed_map_statement, placed_map_statement, List.map_map]
  rfl

end

/-! ## Where the statements stand -/

/-- Every statement stands at its text in the new bytes, and the slots tile as before. -/
structure StandsIn (old new : Bytes) (a b : Composition) : Prop where
  before : List.Forall₂ (fun s t => s.StandsAt new (s.slotText old) t) a.before b.before
  component : a.component.StandsAt new (componentText old a.component a.body) b.component
  body : List.Forall₂ (fun s t => s.StandsAt new (s.slotText old) t) a.body b.body
  after : List.Forall₂ (fun s t => s.StandsAt new (s.slotText old) t) a.after b.after
  module_tiles : slotsTile 0 new.length b.statements = true
  body_tiles : slotsTile b.component.span.start b.component.span.stop b.body = true

theorem standsAt_relocated {bytes text : Bytes} {s : Statement} {offset : Int}
    (h : bytes.HasAt offset text) (hlen : (text.length : Int) = s.span.stop - s.slotStart)
    (lineFeeds : List Int) : s.StandsAt bytes text (s.relocated lineFeeds offset) := by
  refine ⟨?_, s.slotKept_relocated lineFeeds offset⟩
  rw [s.relocated_slotStart, s.relocated_stop]
  exact h.slice (by omega)

section

variable {bytes : Bytes} {unit : SourceUnit} {a : Composition} {offsets offsets' : List Int}
  {offset : Int}

/-- The text before the body reaches at least to where the component's span begins. -/
theorem Tiled.le_first_innerGap (h : Tiled bytes unit a.component) {s : Statement}
    (hs : s ∈ a.component.bodyStatements) : a.component.span.start - a.component.slotStart ≤
      ((innerGaps bytes a.component).headD []).length := by
  obtain ⟨h₁, -, h₃⟩ := bounds_of_slotsTile h.module h.mem
  have hle := a.component.slotStart_le_start
  have htile := h.inner
  unfold innerGaps
  cases hb : a.component.bodyStatements with
  | nil => rw [hb] at hs; simp at hs
  | cons t rest =>
    rw [hb, slotsTile_cons] at htile
    rw [gaps, List.headD_cons, Bytes.length_slice bytes h₁ (by omega) (by omega)]
    omega

theorem Tiled.length_componentText (h : Tiled bytes unit a.component) (ha : a.Reorders unit) :
    ((componentText bytes a.component a.body).length : Int) =
      a.component.span.stop - a.component.slotStart := by
  rw [(h.componentText_perm ha.body).length_eq]
  exact h.length_slotText h.mem

theorem forall₂_slotText {ss : List Statement}
    (h : ∀ s ∈ ss, ((s.slotText bytes).length : Int) = s.span.stop - s.slotStart) :
    List.Forall₂ (fun s t => ((t : Bytes).length : Int) = s.span.stop - s.slotStart) ss
      (ss.map (·.slotText bytes)) :=
  List.forall₂_map_right_iff.2 (List.forall₂_same.2 h)

/-- The slots of the spliced module tile the new bytes. -/
theorem slotsTile_placedAt (h : Tiled bytes unit a.component) (ha : a.Reorders unit)
    (ho : Offsets bytes unit a offsets offset offsets') (lineFeeds : List Int) :
    slotsTile 0 (moduleText bytes unit a).length
      (placedAt bytes lineFeeds a offsets offset offsets').statements = true := by
  have hmodule : ∀ s ∈ a.before ++ a.component :: a.after,
      ((s.slotText bytes).length : Int) = s.span.stop - s.slotStart := fun s hs =>
    h.length_slotText (ha.module.subset hs)
  have hlen : ∀ body, List.Forall₂
      (fun s t => ((t : Bytes).length : Int) = s.span.stop - s.slotStart)
      ({ a with body := body } : Composition).statements (moduleTexts bytes a) := fun body =>
    List.rel_append (forall₂_slotText fun s hs => hmodule s (by simp [hs]))
      (.cons (h.length_componentText ha) (forall₂_slotText fun s hs => hmodule s (by simp [hs])))
  have htile := slotsTile_placed lineFeeds (length_moduleGaps bytes ha)
    (hlen (placedAt bytes lineFeeds a offsets offset offsets').body) 0
  rw [ho.eq, Composition.statements, placed_append lineFeeds ho.before.length_eq] at htile
  rw [Int.zero_add, Int.zero_add] at htile
  refine slotsTile_of_le ?_ htile
  omega

/-- The slots of its body tile the spliced component. -/
theorem slotsTile_placedAt_body (h : Tiled bytes unit a.component) (ha : a.Reorders unit)
    (lineFeeds : List Int) :
    slotsTile (a.component.relocated lineFeeds offset).span.start
      (a.component.relocated lineFeeds offset).span.stop
      (placedAt bytes lineFeeds a offsets offset offsets').body = true := by
  have hlen := forall₂_slotText fun s hs => h.length_slotText_inner (ha.body.subset hs)
  have htile := slotsTile_placed lineFeeds (length_innerGaps bytes ha) hlen offset
  have htotal := h.length_componentText ha
  rw [componentText] at htotal
  have hstop : offset + (interleave (innerGaps bytes a.component)
      (a.body.map (·.slotText bytes))).length =
        (a.component.relocated lineFeeds offset).span.stop := by
    rw [a.component.relocated_stop]
    omega
  rw [hstop] at htile
  -- with an empty body the span may begin behind the only gap, but then there is nothing to tile
  cases hb : a.body with
  | nil => unfold placedAt placed; rw [hb]; rfl
  | cons s rest =>
    refine slotsTile_of_le ?_ htile
    have hgap := h.le_first_innerGap (ha.body.subset (by rw [hb]; simp : s ∈ a.body))
    rw [a.component.relocated_start]
    omega

theorem standsIn_placedAt (h : Tiled bytes unit a.component) (ha : a.Reorders unit)
    (ho : Offsets bytes unit a offsets offset offsets') (lineFeeds : List Int) :
    StandsIn bytes (moduleText bytes unit a) a
      (placedAt bytes lineFeeds a offsets offset offsets') := by
  have hmodule : ∀ s ∈ a.before ++ a.component :: a.after,
      ((s.slotText bytes).length : Int) = s.span.stop - s.slotStart := fun s hs =>
    h.length_slotText (ha.module.subset hs)
  have hbody := List.forall₂_map_left_iff.1
    (hasAt_textOffsets (length_innerGaps bytes ha) ho.component)
  refine ⟨?_, standsAt_relocated ho.component (h.length_componentText ha) lineFeeds, ?_, ?_,
    slotsTile_placedAt h ha ho lineFeeds, slotsTile_placedAt_body h ha lineFeeds⟩
  · exact forall₂_placed lineFeeds ho.before fun s hs o hat =>
      standsAt_relocated hat (hmodule s (by simp [hs])) lineFeeds
  · exact forall₂_placed lineFeeds hbody fun s hs o hat =>
      standsAt_relocated hat (h.length_slotText_inner (ha.body.subset hs)) lineFeeds
  · exact forall₂_placed lineFeeds ho.after fun s hs o hat =>
      standsAt_relocated hat (hmodule s (by simp [hs])) lineFeeds

theorem movedTo_placedAt (ha : a.Reorders unit) (ho : Offsets bytes unit a offsets offset offsets')
    (lineFeeds : List Int) :
    a.MovedTo (placedAt bytes lineFeeds a offsets offset offsets') := by
  have hbody := List.forall₂_map_left_iff.1
    (hasAt_textOffsets (length_innerGaps bytes ha) ho.component)
  refine ⟨forall₂_placed lineFeeds ho.before ?_, rfl, forall₂_placed lineFeeds hbody ?_,
    forall₂_placed lineFeeds ho.after ?_⟩
  · exact fun _ _ _ _ => rfl
  · exact fun _ _ _ _ => rfl
  · exact fun _ _ _ _ => rfl

end

end Fix

end ComponentLint
