import ComponentLint.Proofs.Document.Encoding
import ComponentLint.Proofs.Fix.Plan
/-
  Documents that are written can be read again. Reading drops empty names and takes the reads as a
  set, so not every unit is read back from its document; the clean ones are (`read_encode`). Units
  that are read are clean (`clean_of_read`) and a fix keeps them so (`exists_clean_fixUnit`): it
  moves whole slots, which stay inside the source.
-/

namespace ComponentLint

/-! ## Sets of texts -/

theorem mem_insertNew {a b : String} {texts : List String} :
    b ∈ insertNew a texts ↔ b = a ∨ b ∈ texts := by
  induction texts with
  | nil => simp [insertNew]
  | cons c texts ih =>
    unfold insertNew
    split
    · exact List.mem_cons
    · split
      · next h => rw [h, List.mem_cons, or_self_left]
      · rw [List.mem_cons, ih, List.mem_cons, or_left_comm]

theorem mem_textSet {a : String} {texts : List String} : a ∈ textSet texts ↔ a ∈ texts := by
  induction texts with
  | nil => rfl
  | cons b texts ih => rw [textSet, mem_insertNew, ih, List.mem_cons]

theorem pairwise_insertNew {a : String} {texts : List String} (h : texts.Pairwise (· < ·)) :
    (insertNew a texts).Pairwise (· < ·) := by
  induction texts with
  | nil => exact List.pairwise_singleton _ _
  | cons b texts ih =>
    obtain ⟨hb, htexts⟩ := List.pairwise_cons.1 h
    unfold insertNew
    split
    · next hab =>
      refine List.pairwise_cons.2 ⟨fun c hc => ?_, h⟩
      rcases List.mem_cons.1 hc with rfl | hc
      · exact hab
      · exact String.lt_trans hab (hb c hc)
    · next hab =>
      split
      · exact h
      · next hne =>
        have hba : b < a := String.not_le.1 fun hle =>
          hne (String.le_antisymm hle (String.not_lt.1 hab))
        refine List.pairwise_cons.2 ⟨fun c hc => ?_, ih htexts⟩
        rcases mem_insertNew.1 hc with rfl | hc
        · exact hba
        · exact hb c hc

theorem pairwise_textSet (texts : List String) : (textSet texts).Pairwise (· < ·) := by
  induction texts with
  | nil => exact .nil
  | cons a texts ih => exact pairwise_insertNew ih

theorem textSet_of_pairwise {texts : List String} (h : texts.Pairwise (· < ·)) :
    textSet texts = texts := by
  induction texts with
  | nil => rfl
  | cons a texts ih =>
    obtain ⟨ha, htexts⟩ := List.pairwise_cons.1 h
    rw [textSet, ih htexts]
    cases texts with
    | nil => rfl
    | cons b texts => rw [insertNew, if_pos (ha b List.mem_cons_self)]

/-! ## Clean statements -/

theorem Span.isValid_iff {span : Span} :
    span.isValid = true ↔ 0 ≤ span.start ∧ span.start ≤ span.stop := by
  unfold isValid
  rw [Bool.and_eq_true, decide_eq_true_eq, decide_eq_true_eq]

namespace Statement

/-- A span that can be one, no empty names or reads, and the reads a set. -/
structure Proper (s : Statement) : Prop where
  span : s.span.isValid = true
  names : ∀ name ∈ s.names, name.isEmpty = false
  reads : ∀ name ∈ s.reads, name.isEmpty = false
  ascending : s.reads.Pairwise (· < ·)

/-- A statement that is proper, and so are the statements in its body at every depth. -/
inductive Clean : Statement → Prop where
  | intro {s : Statement} (proper : s.Proper) (body : ∀ t ∈ s.bodyStatements, t.Clean) : s.Clean

theorem Clean.proper {s : Statement} (h : s.Clean) : s.Proper := by
  cases h with
  | intro proper body => exact proper

theorem Clean.body {s : Statement} (h : s.Clean) : ∀ t ∈ s.bodyStatements, t.Clean := by
  cases h with
  | intro proper body => exact body

end Statement

/-- Every statement of the unit is clean. -/
def SourceUnit.Clean (unit : SourceUnit) : Prop :=
  ∀ s ∈ unit.statements, s.Clean

namespace Document

theorem invalidSpanIn?_eq_none_iff {statements : List Statement} :
    invalidSpanIn? statements = none ↔ ∀ s ∈ statements, invalidSpan? s = none := by
  induction statements with
  | nil => simp [invalidSpanIn?]
  | cons s statements ih =>
    rw [invalidSpanIn?, List.forall_mem_cons, ← ih]
    cases invalidSpan? s with
    | none => simp
    | some error => simp

theorem invalidSpan?_eq_none_iff {s : Statement} : invalidSpan? s = none ↔
    s.span.isValid = true ∧ ∀ t ∈ s.bodyStatements, invalidSpan? t = none := by
  have hbody : ∀ body, invalidSpanInBody? body = none ↔
      ∀ t ∈ body.getD [], invalidSpan? t = none := by
    intro body
    cases body with
    | none => simp [invalidSpanInBody?]
    | some statements => rw [invalidSpanInBody?, invalidSpanIn?_eq_none_iff, Option.getD_some]
  obtain ⟨_, span⟩ := s
  rw [invalidSpan?, Statement.bodyStatements, ← hbody]
  dsimp only
  cases span.isValid with
  | false => simp
  | true => simp

theorem tidyAll_eq_map (statements : List Statement) :
    tidyAll statements = statements.map tidy := by
  induction statements with
  | nil => rfl
  | cons s statements ih => rw [tidyAll, ih, List.map_cons]

theorem tidy_eq (s : Statement) : tidy s =
    { s with
      names := s.names.filter (!·.isEmpty)
      reads := textSet (s.reads.filter (!·.isEmpty))
      body := s.body.map (·.map tidy) } := by
  have hbody : ∀ body, tidyBody body = body.map (·.map tidy) := by
    intro body
    cases body with
    | none => rfl
    | some statements => rw [tidyBody, tidyAll_eq_map, Option.map_some]
  cases s
  rw [tidy, hbody]

theorem bodyStatements_tidy (s : Statement) :
    (tidy s).bodyStatements = s.bodyStatements.map tidy := by
  rw [tidy_eq, Statement.bodyStatements, Statement.bodyStatements]
  cases s.body with
  | none => rfl
  | some statements => rfl

theorem clean_tidy {s : Statement} (h : invalidSpan? s = none) : (tidy s).Clean := by
  induction s using Statement.bodyInduction with
  | step s ih =>
    obtain ⟨hspan, hbody⟩ := invalidSpan?_eq_none_iff.1 h
    have hfilter : ∀ texts : List String, ∀ text ∈ texts.filter (!·.isEmpty),
        text.isEmpty = false := by
      intro texts text ht
      simpa using List.of_mem_filter ht
    refine .intro ?_ ?_
    · rw [tidy_eq]
      exact ⟨hspan, hfilter s.names, fun name hname => hfilter s.reads name (mem_textSet.1 hname),
        pairwise_textSet _⟩
    · rw [bodyStatements_tidy]
      exact List.forall_mem_map.2 fun t ht => ih t ht (hbody t ht)

/-- Tidying leaves a clean statement as it is. -/
theorem tidy_of_clean {s : Statement} (h : s.Clean) : tidy s = s := by
  induction h with
  | @intro s proper _ ih =>
    have hkeep : ∀ texts : List String, (∀ text ∈ texts, text.isEmpty = false) →
        texts.filter (!·.isEmpty) = texts := by
      intro texts ht
      exact List.filter_eq_self.2 fun text hm => by rw [ht text hm]; rfl
    have hbody : s.body.map (·.map tidy) = s.body := by
      rw [Statement.bodyStatements] at ih
      cases hb : s.body with
      | none => rfl
      | some statements =>
        rw [hb, Option.getD_some] at ih
        rw [Option.map_some, List.map_congr_left ih, List.map_id']
    rw [tidy_eq, hkeep _ proper.names, hkeep _ proper.reads, textSet_of_pairwise proper.ascending,
      hbody]
    cases s
    rfl

theorem invalidSpan?_of_clean {s : Statement} (h : s.Clean) : invalidSpan? s = none := by
  induction h with
  | intro proper _ ih => exact invalidSpan?_eq_none_iff.2 ⟨proper.span, ih⟩

/-- Units that are read are clean. -/
theorem clean_of_read {data : Data} {unit : SourceUnit} (h : read data = .ok unit) :
    unit.Clean := by
  unfold read at h
  split at h
  · exact absurd h (by simp)
  · next decoded _ =>
    split at h
    · exact absurd h (by simp)
    · next hspans =>
      rw [← Except.ok.inj h, SourceUnit.Clean]
      dsimp only
      rw [tidyAll_eq_map]
      exact List.forall_mem_map.2 fun s hs => clean_tidy (invalidSpanIn?_eq_none_iff.1 hspans s hs)

/-- A clean unit is read back from its document. -/
theorem read_encode {unit : SourceUnit} (h : unit.Clean) : read (encode unit) = .ok unit := by
  have hspans : invalidSpanIn? unit.statements = none :=
    invalidSpanIn?_eq_none_iff.2 fun s hs => invalidSpan?_of_clean (h s hs)
  have htidy : tidyAll unit.statements = unit.statements := by
    rw [tidyAll_eq_map, List.map_congr_left fun s hs => tidy_of_clean (h s hs), List.map_id']
  unfold read
  rw [decodeUnit_encode]
  dsimp only
  rw [hspans, htidy]

end Document

/-! ## Clean units stay clean -/

namespace Statement

theorem Clean.of_movedTo {s t : Statement} (h : s.Clean) (hm : s.MovedTo t)
    (hspan : t.span.isValid = true) : t.Clean := by
  have hnames : t.names = s.names := by rw [hm]
  have hreads : t.reads = s.reads := by rw [hm]
  have hbody : t.body = s.body := by rw [hm]
  refine .intro ⟨hspan, ?_, ?_, ?_⟩ ?_
  · rw [hnames]; exact h.proper.names
  · rw [hreads]; exact h.proper.reads
  · rw [hreads]; exact h.proper.ascending
  · rw [bodyStatements, hbody]; exact h.body

theorem Clean.with_body {s : Statement} (h : s.Clean) {body : List Statement}
    (hb : ∀ t ∈ body, t.Clean) : Clean { s with body := some body } :=
  .intro ⟨h.proper.span, h.proper.names, h.proper.reads, h.proper.ascending⟩ hb

/-- A statement whose slot is moved to an offset that can be one has a span that can be one. -/
theorem SlotKept.isValid {s t : Statement} (h : s.SlotKept t) (hs : s.span.isValid = true)
    (h0 : 0 ≤ t.slotStart) : t.span.isValid = true := by
  have hstart := h.start
  have hstop := h.stop
  have hle := t.slotStart_le_start
  rw [Span.isValid_iff] at hs ⊢
  omega

end Statement

namespace Composition

/-- The statements of the module and those of the body are clean. -/
structure Clean (a : Composition) : Prop where
  module : ∀ s ∈ a.before ++ a.component :: a.after, s.Clean
  body : ∀ s ∈ a.body, s.Clean

theorem Clean.statements {a : Composition} (h : a.Clean) : ∀ s ∈ a.statements, s.Clean := by
  have hmodule := h.module
  rw [List.forall_mem_append, List.forall_mem_cons] at hmodule
  rw [Composition.statements, List.forall_mem_append, List.forall_mem_cons]
  exact ⟨hmodule.1, hmodule.2.1.with_body h.body, hmodule.2.2⟩

theorem Reorders.clean {a : Composition} {unit : SourceUnit} (ha : a.Reorders unit)
    (h : unit.Clean) : a.Clean := by
  have hmodule : ∀ s ∈ a.before ++ a.component :: a.after, s.Clean := fun s hs =>
    h s (ha.module.subset hs)
  refine ⟨hmodule, fun s hs => ?_⟩
  exact (hmodule a.component (by simp)).body s (ha.body.subset hs)

end Composition

namespace Fix

theorem clean_of_standsAt {old new : Bytes} {ss ts : List Statement}
    (hm : List.Forall₂ Statement.MovedTo ss ts)
    (hs : List.Forall₂ (fun s t => s.StandsAt new (s.slotText old) t) ss ts)
    (hclean : ∀ s ∈ ss, s.Clean) (h0 : ∀ t ∈ ts, 0 ≤ t.slotStart) : ∀ t ∈ ts, t.Clean := by
  induction hm with
  | nil => exact fun t ht => absurd ht List.not_mem_nil
  | cons hmoved _ ih =>
    obtain ⟨hstands, hs⟩ := List.forall₂_cons.1 hs
    rw [List.forall_mem_cons] at hclean h0 ⊢
    have hspan := hstands.kept.isValid hclean.1.proper.span h0.1
    exact ⟨hclean.1.of_movedTo hmoved hspan, ih hs hclean.2 h0.2⟩

/-- The slots of a spliced unit begin inside the source, so its statements stay clean. -/
theorem StandsIn.clean {old new : Bytes} {a b : Composition} (h : StandsIn old new a b)
    (hm : a.MovedTo b) (ha : a.Clean) : b.Clean := by
  have hmodule := ha.module
  rw [List.forall_mem_append, List.forall_mem_cons] at hmodule
  have hslot : ∀ t ∈ b.statements, 0 ≤ t.slotStart := fun t ht =>
    (bounds_of_slotsTile h.module_tiles ht).1
  rw [Composition.statements, List.forall_mem_append, List.forall_mem_cons] at hslot
  have hcomponent : 0 ≤ b.component.slotStart := hslot.2.1
  -- the slots of the body begin behind the component's start, and that is no negative offset
  have hbody : ∀ t ∈ b.body, 0 ≤ t.slotStart := by
    intro t ht
    have hle := b.component.slotStart_le_start
    have hbounds := (bounds_of_slotsTile h.body_tiles ht).1
    omega
  refine ⟨?_, clean_of_standsAt hm.body h.body ha.body hbody⟩
  rw [List.forall_mem_append, List.forall_mem_cons]
  refine ⟨clean_of_standsAt hm.before h.before hmodule.1 hslot.1, ?_,
    clean_of_standsAt hm.after h.after hmodule.2.2 hslot.2.2⟩
  exact hmodule.2.1.of_movedTo hm.component
    (h.component.kept.isValid hmodule.2.1.proper.span hcomponent)

theorem Planned.clean {unit : SourceUnit} {a : Composition} {fix : Fix} (h : Planned unit a fix)
    (ha : a.Reorders unit) (hc : unit.Clean) : fix.unit.Clean := by
  have hclean := ha.clean hc
  cases h with
  | unchanged => exact hc
  | reordered => exact hclean.statements
  | sourceKept => exact hclean.statements
  | spliced source text b _ _ _ hmoved hstands => exact (hstands.clean hmoved hclean).statements

end Fix

/-- Every clean unit that is not blocked can be put in order, and then it is clean. -/
theorem exists_clean_fixUnit {unit : SourceUnit} (h : unit.Clean) {options : Options}
    (hb : ¬ Blocked options true unit) : ∃ fixed, fixUnit options unit = .ok fixed ∧ fixed.Clean := by
  cases hk : unit.componentIndex? with
  | none =>
    refine ⟨unit, ?_, h⟩
    rw [fixUnit, lint_eq_skipped hk]
    rfl
  | some k =>
    obtain ⟨before, d, body, after, -, hreorders, -, hplanned⟩ :=
      Outline.exists_layout_arranged hk options
    obtain ⟨fix, hfix⟩ := exists_plan? hk hb
    exact ⟨_, fixUnit_eq_of_plan? hk hfix, (hplanned fix hfix).clean hreorders h⟩

namespace Document

/-- A unit that was read is read back from its document, and so is the unit that any fix makes
of it, if it is not blocked. -/
theorem read_encode_fix (data : Data) (unit : SourceUnit) (h : read data = .ok unit)
    (options : Options) : read (encode unit) = .ok unit ∧
      (¬ Blocked options true unit →
        ∃ fixed, fixUnit options unit = .ok fixed ∧ read (encode fixed) = .ok fixed) := by
  have hclean := clean_of_read h
  refine ⟨read_encode hclean, fun hb => ?_⟩
  obtain ⟨fixed, hfixed, hfixedClean⟩ := exists_clean_fixUnit hclean hb
  exact ⟨fixed, hfixed, read_encode hfixedClean⟩

/-- A document with empty names, reads in any order and more than once, a number written as a text
and a flag as a number, a body that is null and one that is empty, and an import behind the
component. -/
def loose : Data :=
  .record [("unit", .text ""), ("source", .text "function A(){f(a,b);}import r;"),
    ("statements", .list
      [.record [("kind", .text "function"),
        ("span", .record [("end", .text "21"), ("start", .int 0)]),
        ("names", .list [.text "", .text "A"]), ("exported", .int 1),
        ("body", .list
          [.record [("kind", .text "expression"),
            ("span", .record [("start", .int 13), ("end", .int 20)]),
            ("reads", .list [.text "b", .text "", .text "a", .text "b"]), ("body", .list [])]])],
      .record [("kind", .text "import"), ("span", .record [("start", .int 21), ("end", .int 30)]),
        ("module", .text "r"), ("leading_comment", .text ""), ("body", .null)]])]

/-- What is read from it. -/
def looseUnit : SourceUnit where
  name := ""
  source := some "function A(){f(a,b);}import r;"
  statements :=
    [{ kind := .functionStmt, span := { start := 0, stop := 21 }, names := ["A"], exported := true
       body := some
        [{ kind := .expressionStmt, span := { start := 13, stop := 20 }, reads := ["a", "b"]
           body := some [] }] },
     { kind := .importStmt, span := { start := 21, stop := 30 }, leadingComment := some ""
       moduleName := some "r" }]

theorem read_encode_fix_loose : read loose = .ok looseUnit ∧
    read (encode looseUnit) = .ok looseUnit ∧
      ∃ fixed, fixUnit .standard looseUnit = .ok fixed ∧ read (encode fixed) = .ok fixed := by
  have hread : read loose = .ok looseUnit := by rfl
  obtain ⟨hback, hfix⟩ := read_encode_fix loose looseUnit hread .standard
  exact ⟨hread, hback, hfix (not_blocked_of_text rfl .standard true)⟩

end Document

end ComponentLint
