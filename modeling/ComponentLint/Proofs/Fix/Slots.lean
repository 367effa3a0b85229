import ComponentLint.Fix.Slot
import Mathlib.Data.List.Basic
import Mathlib.Data.List.Forall2
/-
  Slots, gaps and offsets. Statements that tile a stretch of the source cut it into gaps and slots
  that make it up again (`interleave_gaps`). Whatever texts are put between the gaps, the bytes are
  those of the gaps and of the texts (`interleave_perm`), each text stands at its offset
  (`hasAt_textOffsets`), and statements shifted to the offsets of their texts tile again
  (`slotsTile_placed`).
-/

namespace ComponentLint

/-! ## Slices -/

namespace Bytes

variable (bytes : Bytes)

theorem slice_zero_length : bytes.slice 0 bytes.length = bytes := by
  simp [slice]

theorem length_slice {a b : Int} (ha : 0 ≤ a) (hab : a ≤ b) (hb : b ≤ bytes.length) :
    ((bytes.slice a b).length : Int) = b - a := by
  unfold slice
  rw [List.length_take, List.length_drop]
  omega

theorem slice_append_slice {a b c : Int} (ha : 0 ≤ a) (hab : a ≤ b) (hbc : b ≤ c) :
    bytes.slice a b ++ bytes.slice b c = bytes.slice a c := by
  unfold slice
  have hdrop : bytes.drop b.toNat = (bytes.drop a.toNat).drop (b - a).toNat := by
    rw [List.drop_drop]
    congr 1
    omega
  have hlen : (c - a).toNat = (b - a).toNat + (c - b).toNat := by omega
  rw [hdrop, hlen, List.take_add]

/-- The text stands at an offset of the bytes. -/
def HasAt (offset : Int) (text : Bytes) : Prop :=
  ∃ front back, bytes = front ++ (text ++ back) ∧ offset = front.length

theorem hasAt_zero : bytes.HasAt 0 bytes :=
  ⟨[], [], by simp, rfl⟩

variable {bytes}

theorem HasAt.slice {offset stop : Int} {text : Bytes} (h : bytes.HasAt offset text)
    (hs : stop = offset + text.length) : bytes.slice offset stop = text := by
  obtain ⟨front, back, rfl, rfl⟩ := h
  have hstop : (stop - front.length).toNat = text.length := by omega
  unfold Bytes.slice
  rw [hstop, Int.toNat_natCast, List.drop_left, List.take_left]

theorem HasAt.left {offset : Int} {text text' : Bytes} (h : bytes.HasAt offset (text ++ text')) :
    bytes.HasAt offset text := by
  obtain ⟨front, back, rfl, rfl⟩ := h
  exact ⟨front, text' ++ back, by rw [List.append_assoc], rfl⟩

theorem HasAt.right {offset : Int} {text text' : Bytes} (h : bytes.HasAt offset (text ++ text')) :
    bytes.HasAt (offset + text.length) text' := by
  obtain ⟨front, back, rfl, rfl⟩ := h
  refine ⟨front ++ text, back, by simp only [List.append_assoc], ?_⟩
  rw [List.length_append]
  omega

theorem ofText_of_toText? {text : String} (h : bytes.toText? = some text) :
    ofText text = bytes := by
  unfold toText? String.fromUTF8? at h
  split at h
  · rw [← Option.some.inj h]
    rfl
  · exact absurd h (by simp)

theorem toText?_ofText (text : String) : (ofText text).toText? = some text := by
  unfold toText? ofText String.fromUTF8?
  exact dif_pos text.isValidUTF8

end Bytes

/-! ## Gaps and texts in turn -/

theorem length_gaps (source : Bytes) (start stop : Int) (ss : List Statement) :
    (gaps source start stop ss).length = ss.length + 1 := by
  induction ss generalizing start with
  | nil => rfl
  | cons s ss ih => rw [gaps, List.length_cons, ih, List.length_cons]

theorem slotsTile_cons {start stop : Int} {s : Statement} {ss : List Statement} :
    slotsTile start stop (s :: ss) = true ↔ start ≤ s.slotStart ∧ s.span.stop ≤ stop ∧
      s.slotStart ≤ s.span.stop ∧ slotsTile s.span.stop stop ss = true := by
  simp only [slotsTile, Bool.and_eq_true, decide_eq_true_eq, and_assoc]

/-- A stretch that begins earlier is tiled too. -/
theorem slotsTile_of_le {start start' stop : Int} (h : start' ≤ start) {ss : List Statement}
    (ht : slotsTile start stop ss = true) : slotsTile start' stop ss = true := by
  cases ss with
  | nil => rfl
  | cons s ss =>
    rw [slotsTile_cons] at ht ⊢
    exact ⟨by omega, ht.2⟩

theorem bounds_of_slotsTile {start stop : Int} {ss : List Statement}
    (h : slotsTile start stop ss = true) {s : Statement} (hs : s ∈ ss) :
    start ≤ s.slotStart ∧ s.slotStart ≤ s.span.stop ∧ s.span.stop ≤ stop := by
  induction ss generalizing start with
  | nil => simp at hs
  | cons t ss ih =>
    obtain ⟨h₁, h₂, h₃, hrest⟩ := slotsTile_cons.1 h
    rcases List.mem_cons.1 hs with rfl | hs
    · exact ⟨h₁, h₃, h₂⟩
    · have := ih hrest hs
      omega

/-- Slots and gaps make up the stretch that the slots tile. -/
theorem interleave_gaps (source : Bytes) {start stop : Int} (h0 : 0 ≤ start) {ss : List Statement}
    (h : slotsTile start stop ss = true) :
    interleave (gaps source start stop ss) (ss.map (·.slotText source)) =
      source.slice start stop := by
  induction ss generalizing start with
  | nil => simp [gaps, interleave]
  | cons s ss ih =>
    obtain ⟨h₁, h₂, h₃, hrest⟩ := slotsTile_cons.1 h
    rw [gaps, List.map_cons, interleave, ih (by omega) hrest, Statement.slotText, List.append_assoc,
      Bytes.slice_append_slice source (by omega) h₃ h₂,
      Bytes.slice_append_slice source h0 h₁ (by omega)]

/-- Whatever their order, gaps and texts are all the bytes there are. -/
theorem interleave_perm {gs ts : List Bytes} (h : gs.length = ts.length + 1) :
    (interleave gs ts).Perm (gs.flatten ++ ts.flatten) := by
  induction ts generalizing gs with
  | nil =>
    cases gs with
    | nil => simp at h
    | cons g gs => simp [interleave]
  | cons t ts ih =>
    cases gs with
    | nil => simp at h
    | cons g gs =>
      have hlen : gs.length = ts.length + 1 := by simpa using h
      have hrest := ih hlen
      rw [interleave, List.flatten_cons, List.flatten_cons, List.append_assoc, List.append_assoc]
      refine List.Perm.append_left g ((hrest.append_left t).trans ?_)
      rw [← List.append_assoc, ← List.append_assoc]
      exact List.perm_append_comm.append_right _

/-- Other texts of the same bytes give the same bytes. -/
theorem interleave_perm_interleave {gs ts ts' : List Bytes} (h : gs.length = ts.length + 1)
    (h' : gs.length = ts'.length + 1) (hp : ts.flatten.Perm ts'.flatten) :
    (interleave gs ts).Perm (interleave gs ts') :=
  (interleave_perm h).trans ((hp.append_left _).trans (interleave_perm h').symm)

/-- Each text stands at its offset. -/
theorem hasAt_textOffsets {bytes : Bytes} {first : Int} {gs ts : List Bytes}
    (h : gs.length = ts.length + 1) (hb : bytes.HasAt first (interleave gs ts)) :
    List.Forall₂ (fun t offset => bytes.HasAt offset t) ts (textOffsets first gs ts) := by
  induction ts generalizing first gs with
  | nil =>
    cases gs with
    | nil => simp at h
    | cons g gs => exact .nil
  | cons t ts ih =>
    cases gs with
    | nil => simp at h
    | cons g gs =>
      have hlen : gs.length = ts.length + 1 := by simpa using h
      rw [interleave, List.append_assoc] at hb
      rw [textOffsets]
      exact .cons hb.right.left (ih hlen hb.right.right)

/-! ## Statements at their offsets -/

namespace Statement

theorem slotStart_le_start (s : Statement) : s.slotStart ≤ s.span.start := by
  unfold slotStart
  split
  · exact Int.le_refl _
  · exact Int.min_le_right _ _

theorem moved_start (span : Span) (lineFeeds : List Int) (delta : Int) :
    (span.moved lineFeeds delta).start = span.start + delta := by
  unfold Span.moved
  dsimp only
  split
  · rfl
  · rfl

theorem moved_stop (span : Span) (lineFeeds : List Int) (delta : Int) :
    (span.moved lineFeeds delta).stop = span.stop + delta := by
  unfold Span.moved
  dsimp only
  split
  · rfl
  · rfl

variable (s : Statement) (lineFeeds : List Int) (offset : Int)

theorem relocated_start :
    (s.relocated lineFeeds offset).span.start = s.span.start + (offset - s.slotStart) :=
  moved_start _ _ _

theorem relocated_stop :
    (s.relocated lineFeeds offset).span.stop = s.span.stop + (offset - s.slotStart) :=
  moved_stop _ _ _

theorem relocated_leadingStart :
    (s.relocated lineFeeds offset).leadingStart =
      s.leadingStart.map (· + (offset - s.slotStart)) :=
  rfl

/-- The slot of a relocated statement begins at its offset. -/
theorem relocated_slotStart : (s.relocated lineFeeds offset).slotStart = offset := by
  have hstart := relocated_start s lineFeeds offset
  have hleading := relocated_leadingStart s lineFeeds offset
  unfold slotStart at *
  cases hl : s.leadingStart with
  | none =>
    rw [hl] at hleading hstart
    rw [hleading]
    dsimp only [Option.map_none] at *
    rw [hstart]
    omega
  | some leading =>
    rw [hl] at hleading hstart
    rw [hleading]
    dsimp only [Option.map_some] at *
    rw [hstart]
    omega

/-- The statement lies in its slot as before. -/
structure SlotKept (s t : Statement) : Prop where
  start : t.span.start - t.slotStart = s.span.start - s.slotStart
  stop : t.span.stop - t.slotStart = s.span.stop - s.slotStart
  leading : t.leadingStart.map (· - t.slotStart) = s.leadingStart.map (· - s.slotStart)

theorem slotKept_relocated : s.SlotKept (s.relocated lineFeeds offset) := by
  have hslot := relocated_slotStart s lineFeeds offset
  refine ⟨?_, ?_, ?_⟩
  · rw [hslot, relocated_start]; omega
  · rw [hslot, relocated_stop]; omega
  · rw [hslot, relocated_leadingStart, Option.map_map]
    congr 1
    funext leading
    simp only [Function.comp_apply]
    omega

end Statement

section

variable (lineFeeds : List Int)

/-- Statements with their slots at other offsets. -/
def placed (ss : List Statement) (offsets : List Int) : List Statement :=
  (ss.zip offsets).map fun (s, offset) => s.relocated lineFeeds offset

theorem placed_append {ss ss' : List Statement} {offsets offsets' : List Int}
    (h : ss.length = offsets.length) :
    placed lineFeeds (ss ++ ss') (offsets ++ offsets') =
      placed lineFeeds ss offsets ++ placed lineFeeds ss' offsets' := by
  unfold placed
  rw [List.zip_append h, List.map_append]

theorem forall₂_placed {R : Statement → Int → Prop} {S : Statement → Statement → Prop}
    {ss : List Statement} {offsets : List Int} (h : List.Forall₂ R ss offsets)
    (hS : ∀ s ∈ ss, ∀ offset, R s offset → S s (s.relocated lineFeeds offset)) :
    List.Forall₂ S ss (placed lineFeeds ss offsets) := by
  induction h with
  | nil => exact .nil
  | cons hr _ ih =>
    exact .cons (hS _ (by simp) _ hr) (ih fun s hs => hS s (by simp [hs]))

/-- Statements at the offsets of texts as long as their slots tile the stretch behind the first
gap. -/
theorem slotsTile_placed {ss : List Statement} {gs ts : List Bytes} (h : gs.length = ts.length + 1)
    (hlen : List.Forall₂ (fun s t => (t.length : Int) = s.span.stop - s.slotStart) ss ts)
    (first : Int) :
    slotsTile (first + (gs.headD []).length) (first + (interleave gs ts).length)
      (placed lineFeeds ss (textOffsets first gs ts)) = true := by
  induction hlen generalizing gs first with
  | nil =>
    cases gs with
    | nil => simp at h
    | cons g gs => rfl
  | @cons s t ss ts ht _ ih =>
    cases gs with
    | nil => simp at h
    | cons g gs =>
      have hgs : gs.length = ts.length + 1 := by simpa using h
      have hrest := ih hgs (first + g.length + t.length)
      have hstart := s.relocated_slotStart lineFeeds (first + g.length)
      have hstop := (s.slotKept_relocated lineFeeds (first + g.length)).stop
      have hend : first + g.length + t.length + (interleave gs ts).length =
          first + (g.length + t.length + (interleave gs ts).length) := by omega
      rw [hend] at hrest
      unfold placed at hrest ⊢
      rw [textOffsets, interleave, List.zip_cons_cons, List.map_cons, slotsTile_cons]
      simp only [List.headD_cons, List.length_append, Int.natCast_add]
      -- the rest tiles from behind its own first gap, so from the end of this slot as well
      exact ⟨by omega, by omega, by omega, slotsTile_of_le (by omega) hrest⟩

end

end ComponentLint
