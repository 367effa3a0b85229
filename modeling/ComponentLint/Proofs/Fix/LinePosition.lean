import ComponentLint.Proofs.Fix.Splice
/-
  The lines of a spliced source. There are as many line feeds before an offset as the bytes before
  it have (`length_filter_lineFeeds`), and the last of them ends the line before
  (`exists_lineStart`). So an offset gets the line and the column that it has in the bytes
  (`positionAt_linePosition`), and no other offset gets the same (`linePosition_injective`). Spliced
  statements whose lines were known have the lines of their new offsets (`linesFoundIn_placedAt`).
-/

namespace ComponentLint

namespace Bytes

/-- Where the line of an offset begins. -/
inductive LineStart (bytes : Bytes) (offset : Int) : Int → Prop where
  /-- There is no line feed before the offset. -/
  | first (hnone : ∀ i : Nat, bytes[i]? = some 0x0A → offset ≤ i) : LineStart bytes offset 0
  /-- The last line feed before the offset is at `i`. -/
  | behind (i : Nat) (hfeed : bytes[i]? = some 0x0A) (hlt : i < offset)
    (hlast : ∀ j : Nat, bytes[j]? = some 0x0A → j < offset → j ≤ i) : LineStart bytes offset (i + 1)

/-- The line of an offset, counted from one. -/
def lineOf (bytes : Bytes) (offset : Int) : Int :=
  1 + (bytes.take offset.toNat).count 0x0A

/-- The line and the column of an offset. -/
structure PositionAt (bytes : Bytes) (offset line column : Int) : Prop where
  line : line = bytes.lineOf offset
  column : ∃ start, bytes.LineStart offset start ∧ column = offset - start

theorem mem_lineFeeds {bytes : Bytes} {first offset : Int} :
    offset ∈ lineFeeds first bytes ↔ ∃ i : Nat, bytes[i]? = some 0x0A ∧ offset = first + i := by
  induction bytes generalizing first with
  | nil => simp [lineFeeds]
  | cons byte rest ih =>
    have hcons : offset ∈ lineFeeds first (byte :: rest) ↔
        (byte = 0x0A ∧ offset = first) ∨ offset ∈ lineFeeds (first + 1) rest := by
      rw [lineFeeds]
      split
      · next hfeed => simp [hfeed]
      · next hfeed => simp [hfeed]
    rw [hcons, ih]
    constructor
    · rintro (⟨rfl, rfl⟩ | ⟨i, hi, rfl⟩)
      · exact ⟨0, rfl, by omega⟩
      · exact ⟨i + 1, hi, by omega⟩
    · rintro ⟨i, hi, rfl⟩
      cases i with
      | zero => exact .inl ⟨Option.some.inj hi, by omega⟩
      | succ i => exact .inr ⟨i, hi, by omega⟩

theorem pairwise_lineFeeds (first : Int) (bytes : Bytes) :
    (lineFeeds first bytes).Pairwise (· < ·) := by
  induction bytes generalizing first with
  | nil => exact .nil
  | cons byte rest ih =>
    rw [lineFeeds]
    split
    · refine .cons (fun offset ho => ?_) (ih _)
      obtain ⟨i, -, rfl⟩ := mem_lineFeeds.1 ho
      omega
    · exact ih _

theorem length_filter_lineFeeds (first offset : Int) (bytes : Bytes) :
    ((lineFeeds first bytes).filter (· < offset)).length =
      (bytes.take (offset - first).toNat).count 0x0A := by
  induction bytes generalizing first with
  | nil => simp [lineFeeds]
  | cons byte rest ih =>
    by_cases hlt : first < offset
    · have htake : (offset - first).toNat = (offset - (first + 1)).toNat + 1 := by omega
      rw [htake, List.take_succ_cons, List.count_cons, ← ih, lineFeeds]
      split
      · next hfeed => simp [hfeed, hlt]
      · next hfeed => simp [hfeed]
    · have hnone : (lineFeeds first (byte :: rest)).filter (· < offset) = [] := by
        refine List.filter_eq_nil_iff.2 fun o ho => ?_
        obtain ⟨i, -, rfl⟩ := mem_lineFeeds.1 ho
        simp only [decide_eq_true_eq]
        omega
      have htake : (offset - first).toNat = 0 := by omega
      rw [hnone, htake]
      rfl

theorem mem_filter_lineFeeds {bytes : Bytes} {offset o : Int} :
    o ∈ (lineFeeds 0 bytes).filter (· < offset) ↔
      ∃ i : Nat, bytes[i]? = some 0x0A ∧ (i : Int) < offset ∧ o = i := by
  simp only [List.mem_filter, mem_lineFeeds, decide_eq_true_eq, Int.zero_add]
  constructor
  · rintro ⟨⟨i, hi, rfl⟩, hlt⟩
    exact ⟨i, hi, hlt, rfl⟩
  · rintro ⟨i, hi, hlt, rfl⟩
    exact ⟨⟨i, hi, rfl⟩, hlt⟩

/-- The column counts from where the line begins. -/
theorem exists_lineStart (bytes : Bytes) (offset : Int) :
    ∃ start, bytes.LineStart offset start ∧
      (linePosition (bytes.lineFeeds 0) offset).2 = offset - start := by
  unfold linePosition
  dsimp only
  cases hlast : ((lineFeeds 0 bytes).filter (· < offset)).getLast? with
  | none =>
    refine ⟨0, .first fun i hi => ?_, rfl⟩
    by_contra hlt
    have hmem := mem_filter_lineFeeds.2 ⟨i, hi, Int.not_le.1 hlt, rfl⟩
    rw [List.getLast?_eq_none_iff.1 hlast] at hmem
    exact absurd hmem List.not_mem_nil
  | some last =>
    obtain ⟨earlier, heq⟩ := List.getLast?_eq_some_iff.1 hlast
    have hordered := (pairwise_lineFeeds 0 bytes).filter (· < offset)
    rw [heq, List.pairwise_append] at hordered
    obtain ⟨i, hi, hlt, rfl⟩ := mem_filter_lineFeeds.1 (heq ▸ List.mem_append_right _
      (List.mem_singleton_self last))
    refine ⟨i + 1, .behind i hi hlt fun j hj hjlt => ?_, rfl⟩
    have hmem := mem_filter_lineFeeds.2 ⟨j, hj, hjlt, rfl⟩
    rw [heq, List.mem_append, List.mem_singleton] at hmem
    rcases hmem with hearlier | hsame
    · have := hordered.2.2 j hearlier i (List.mem_singleton_self _)
      omega
    · omega

/-- An offset gets the line and the column that it has, also one outside the bytes. -/
theorem positionAt_linePosition (bytes : Bytes) (offset : Int) :
    bytes.PositionAt offset (linePosition (bytes.lineFeeds 0) offset).1
      (linePosition (bytes.lineFeeds 0) offset).2 where
  line := by
    have hlength := length_filter_lineFeeds 0 offset bytes
    rw [Int.sub_zero] at hlength
    unfold linePosition lineOf
    dsimp only
    rw [hlength]
    omega
  column := bytes.exists_lineStart offset

end Bytes

/-- Two offsets with the same line have the same line feeds before them, so their columns count from
the same offset. -/
theorem linePosition_injective (lineFeeds : List Int) :
    Function.Injective (linePosition lineFeeds) := by
  have hle : ∀ o o' : Int, o ≤ o' → linePosition lineFeeds o = linePosition lineFeeds o' →
      o = o' := by
    intro o o' hle heq
    unfold linePosition at heq
    simp only [Prod.mk.injEq] at heq
    have hsub : (lineFeeds.filter (· < o)).Sublist (lineFeeds.filter (· < o')) := by
      refine List.monotone_filter_right lineFeeds fun i hi => ?_
      simp only [decide_eq_true_eq] at hi ⊢
      omega
    rw [hsub.eq_of_length (by omega)] at heq
    omega
  intro o o' heq
  rcases Int.le_total o o' with h | h
  · exact hle o o' h heq
  · exact (hle o' o h heq.symm).symm

/-- The lines of a span are those of its offsets. -/
structure Span.LinesIn (bytes : Bytes) (span : Span) : Prop where
  start : bytes.PositionAt span.start span.line span.column
  stop : span.endLine = bytes.lineOf span.stop

/-- The lines of a statement are found anew if they were known, and stay unknown otherwise. -/
structure Statement.LinesFound (bytes : Bytes) (s t : Statement) : Prop where
  known : s.span.line ≠ 0 → t.span.LinesIn bytes
  unknown : s.span.line = 0 → t.span.line = s.span.line ∧ t.span.column = s.span.column ∧
    t.span.endLine = s.span.endLine

theorem Span.linesIn_moved (bytes : Bytes) {span : Span} (h : span.line ≠ 0) (delta : Int) :
    (span.moved (bytes.lineFeeds 0) delta).LinesIn bytes := by
  unfold moved
  dsimp only
  rw [if_neg h]
  exact ⟨bytes.positionAt_linePosition _, (bytes.positionAt_linePosition _).line⟩

theorem Statement.linesFound_relocated (bytes : Bytes) (s : Statement) (offset : Int) :
    s.LinesFound bytes (s.relocated (bytes.lineFeeds 0) offset) where
  known h := Span.linesIn_moved bytes h _
  unknown h := by
    unfold relocated Span.moved
    dsimp only
    rw [if_pos h]
    exact ⟨rfl, rfl, rfl⟩

namespace Fix

/-- The lines of the statements of a module are found anew, and those of its component's body. -/
structure LinesFoundIn (bytes : Bytes) (a b : Composition) : Prop where
  before : List.Forall₂ (Statement.LinesFound bytes) a.before b.before
  component : a.component.LinesFound bytes b.component
  body : List.Forall₂ (Statement.LinesFound bytes) a.body b.body
  after : List.Forall₂ (Statement.LinesFound bytes) a.after b.after

theorem linesFoundIn_placedAt {bytes : Bytes} {unit : SourceUnit} {a : Composition}
    {offsets offsets' : List Int} {offset : Int} (ha : a.Reorders unit)
    (ho : Offsets bytes unit a offsets offset offsets') (new : Bytes) :
    LinesFoundIn new a (placedAt bytes (new.lineFeeds 0) a offsets offset offsets') := by
  have hbody := List.forall₂_map_left_iff.1
    (hasAt_textOffsets (length_innerGaps bytes ha) ho.component)
  refine ⟨forall₂_placed _ ho.before ?_, a.component.linesFound_relocated new offset,
    forall₂_placed _ hbody ?_, forall₂_placed _ ho.after ?_⟩
  · exact fun s _ o _ => s.linesFound_relocated new o
  · exact fun s _ o _ => s.linesFound_relocated new o
  · exact fun s _ o _ => s.linesFound_relocated new o

end Fix

end ComponentLint
