import ComponentLint.Lists
import Mathlib.Data.List.Basic
import Mathlib.Data.List.Nodup
import Mathlib.Data.List.Perm.Basic
/-
  Sorting by insertion keeps the elements (`sortBy_perm`) and, if the order is total and transitive,
  puts them in ascending order (`pairwise_sortBy`). It is stable, and so it does not matter whether
  elements are left out before or after it (`filter_sortBy`). Setting the value of a key changes
  what is found under this key (`Assoc.lookup_put`), and adds it to the keys if it was not there
  (`Assoc.map_fst_put`).
-/

namespace ComponentLint

variable {α : Type}

theorem insertSorted_perm (le : α → α → Bool) (a : α) (l : List α) :
    (insertSorted le a l).Perm (a :: l) := by
  induction l with
  | nil => exact .refl _
  | cons b l ih =>
    unfold insertSorted
    split
    · exact .refl _
    · exact (ih.cons b).trans (.swap a b l)

theorem sortBy_perm (le : α → α → Bool) (l : List α) : (sortBy le l).Perm l := by
  induction l with
  | nil => exact .refl _
  | cons a l ih => exact (insertSorted_perm le a _).trans (ih.cons a)

@[simp] theorem mem_sortBy {le : α → α → Bool} {l : List α} {a : α} : a ∈ sortBy le l ↔ a ∈ l :=
  (sortBy_perm le l).mem_iff

section

variable {le : α → α → Bool} (htotal : ∀ a b, le a b = true ∨ le b a = true)
  (htrans : ∀ a b c, le a b = true → le b c = true → le a c = true)

include htotal htrans

theorem pairwise_insertSorted (a : α) {l : List α} (h : l.Pairwise (le · ·)) :
    (insertSorted le a l).Pairwise (le · ·) := by
  induction l with
  | nil => exact List.pairwise_singleton _ a
  | cons b l ih =>
    obtain ⟨hb, hl⟩ := List.pairwise_cons.1 h
    unfold insertSorted
    split
    · next hab =>
      refine .cons (fun c hc => ?_) h
      rcases List.mem_cons.1 hc with rfl | hc
      · exact hab
      · exact htrans a b c hab (hb c hc)
    · next hab =>
      refine .cons (fun c hc => ?_) (ih hl)
      rcases List.mem_cons.1 ((insertSorted_perm le a l).mem_iff.1 hc) with rfl | hc
      · exact (htotal c b).resolve_left hab
      · exact hb c hc

theorem pairwise_sortBy (l : List α) : (sortBy le l).Pairwise (le · ·) := by
  induction l with
  | nil => exact .nil
  | cons a l ih => exact pairwise_insertSorted htotal htrans a ih

end

/-! ## Leaving out elements -/

theorem insertSorted_of_forall_le {le : α → α → Bool} {a : α} {l : List α}
    (h : ∀ b ∈ l, le a b = true) : insertSorted le a l = a :: l := by
  cases l with
  | nil => rfl
  | cons b l => exact if_pos (h b List.mem_cons_self)

theorem filter_insertSorted_of_neg (le : α → α → Bool) {p : α → Bool} {a : α} (ha : ¬ p a = true)
    (l : List α) : (insertSorted le a l).filter p = l.filter p := by
  induction l with
  | nil => exact List.filter_cons_of_neg ha
  | cons b l ih =>
    unfold insertSorted
    split
    · exact List.filter_cons_of_neg ha
    · rw [List.filter_cons, List.filter_cons, ih]

/-- An element goes before the first that is not smaller. If that one is left out, what is left of
those behind it is not smaller either, as they ascend. -/
theorem filter_insertSorted_of_pos {le : α → α → Bool} {p : α → Bool} {a : α} {l : List α}
    (htrans : ∀ a b c, le a b = true → le b c = true → le a c = true) (ha : p a = true)
    (h : l.Pairwise (le · ·)) :
    (insertSorted le a l).filter p = insertSorted le a (l.filter p) := by
  induction l with
  | nil => exact List.filter_cons_of_pos ha
  | cons b l ih =>
    obtain ⟨hb, hl⟩ := List.pairwise_cons.1 h
    by_cases hab : le a b = true
    · have hle : ∀ c ∈ b :: l, le a c = true :=
        List.forall_mem_cons.2 ⟨hab, fun c hc => htrans a b c hab (hb c hc)⟩
      rw [insertSorted_of_forall_le hle, List.filter_cons_of_pos ha,
        insertSorted_of_forall_le fun c hc => hle c (List.mem_filter.1 hc).1]
    · have hbehind : insertSorted le a (b :: l) = b :: insertSorted le a l := if_neg hab
      rw [hbehind]
      by_cases hpb : p b = true
      · rw [List.filter_cons_of_pos hpb, List.filter_cons_of_pos hpb, ih hl]
        exact (if_neg hab).symm
      · rw [List.filter_cons_of_neg hpb, List.filter_cons_of_neg hpb, ih hl]

theorem filter_sortBy {le : α → α → Bool} (htotal : ∀ a b, le a b = true ∨ le b a = true)
    (htrans : ∀ a b c, le a b = true → le b c = true → le a c = true) (p : α → Bool)
    (l : List α) : (sortBy le l).filter p = sortBy le (l.filter p) := by
  induction l with
  | nil => rfl
  | cons a l ih =>
    rw [sortBy]
    by_cases ha : p a = true
    · rw [filter_insertSorted_of_pos htrans ha (pairwise_sortBy htotal htrans l), ih,
        List.filter_cons_of_pos ha, sortBy]
    · rw [filter_insertSorted_of_neg le ha, ih, List.filter_cons_of_neg ha]

/-- Where all elements of a part are chosen or none is, choosing elements is choosing parts. -/
theorem filter_flatMap_of_forall {κ : Type} {p : α → Bool} {q : κ → Bool} {g : κ → List α}
    {keys : List κ} (h : ∀ k ∈ keys, ∀ a ∈ g k, p a = q k) :
    (keys.flatMap g).filter p = (keys.filter q).flatMap g := by
  induction keys with
  | nil => rfl
  | cons k keys ih =>
    have hown := h k List.mem_cons_self
    rw [List.flatMap_cons, List.filter_append, ih fun j hj => h j (List.mem_cons_of_mem k hj)]
    by_cases hk : q k = true
    · rw [List.filter_cons_of_pos hk, List.flatMap_cons,
        List.filter_eq_self.2 fun a ha => (hown a ha).trans hk]
    · rw [List.filter_cons_of_neg hk, List.filter_eq_nil_iff.2 fun a ha => hown a ha ▸ hk,
        List.nil_append]

theorem lt_trichotomy_texts (a b : String) : a < b ∨ a = b ∨ b < a := by
  by_cases hab : a < b
  · exact Or.inl hab
  · by_cases hba : b < a
    · exact Or.inr (Or.inr hba)
    · exact Or.inr (Or.inl (String.le_antisymm hba hab))

theorem pairwise_sortBy_texts (l : List String) : (sortBy (· ≤ ·) l).Pairwise (· ≤ ·) := by
  have hsorted : (sortBy (fun a b : String => decide (a ≤ b)) l).Pairwise
      fun a b => decide (a ≤ b) = true := by
    refine pairwise_sortBy (fun a b => ?_) (fun a b c hab hbc => ?_) l
    · simpa only [decide_eq_true_eq] using String.le_total a b
    · exact decide_eq_true (String.le_trans (of_decide_eq_true hab) (of_decide_eq_true hbc))
  exact hsorted.imp of_decide_eq_true

/-! ## Maps -/

namespace Assoc

variable {κ ν : Type}

section

variable [BEq κ] [LawfulBEq κ] [DecidableEq κ]

theorem lookup_cons (entry : κ × ν) (entries : Assoc κ ν) (key : κ) :
    (entry :: entries).lookup key = if key = entry.1 then some entry.2 else entries.lookup key := by
  rw [List.lookup_cons]
  by_cases h : key = entry.1
  · rw [if_pos h, beq_iff_eq.2 h]
  · rw [if_neg h, beq_eq_false_iff_ne.2 h]

theorem lookup_put (entries : Assoc κ ν) (key other : κ) (value : ν) :
    (entries.put key value).lookup other =
      if other = key then some value else entries.lookup other := by
  induction entries with
  | nil => exact lookup_cons (key, value) [] other
  | cons entry entries ih =>
    rw [put]
    by_cases hentry : entry.1 = key
    · rw [if_pos hentry, lookup_cons, lookup_cons, hentry]
      by_cases hother : other = key
      · rw [if_pos hother, if_pos hother]
      · rw [if_neg hother, if_neg hother, if_neg hother]
    · rw [if_neg hentry, lookup_cons, lookup_cons, ih]
      by_cases hother : other = entry.1
      · rw [if_pos hother, if_pos hother, if_neg fun h => hentry (hother.symm.trans h)]
      · rw [if_neg hother, if_neg hother]

theorem isSome_lookup_iff {entries : Assoc κ ν} {key : κ} :
    (entries.lookup key).isSome = true ↔ key ∈ entries.map Prod.fst := by
  induction entries with
  | nil => simp
  | cons entry entries ih =>
    rw [lookup_cons, List.map_cons, List.mem_cons]
    by_cases h : key = entry.1
    · simp [h]
    · rw [if_neg h, or_iff_right h]
      exact ih

theorem lookup_eq_some_of_mem {entries : Assoc κ ν} (hk : (entries.map Prod.fst).Nodup) {key : κ}
    {value : ν} (h : (key, value) ∈ entries) : entries.lookup key = some value := by
  induction entries with
  | nil => exact absurd h List.not_mem_nil
  | cons entry entries ih =>
    obtain ⟨hfirst, hrest⟩ := List.nodup_cons.1 hk
    rw [lookup_cons]
    rcases List.mem_cons.1 h with rfl | h
    · exact if_pos rfl
    · have hne : key ≠ entry.1 := fun he => hfirst (he ▸ List.mem_map_of_mem h)
      rw [if_neg hne]
      exact ih hrest h

end

variable [DecidableEq κ]

theorem get_put (entries : Assoc κ ν) (key other : κ) (value default : ν) :
    (entries.put key value).get other default =
      if other = key then value else entries.get other default := by
  unfold get
  rw [lookup_put]
  split
  · rfl
  · rfl

theorem put_of_not_mem {entries : Assoc κ ν} {key : κ} (h : key ∉ entries.map Prod.fst) (value : ν) :
    entries.put key value = entries ++ [(key, value)] := by
  induction entries with
  | nil => rfl
  | cons entry entries ih =>
    rw [List.map_cons, List.mem_cons, not_or] at h
    rw [put, if_neg (Ne.symm h.1), ih h.2, List.cons_append]

theorem map_fst_put_of_mem {entries : Assoc κ ν} {key : κ} (h : key ∈ entries.map Prod.fst)
    (value : ν) : (entries.put key value).map Prod.fst = entries.map Prod.fst := by
  induction entries with
  | nil => exact absurd h List.not_mem_nil
  | cons entry entries ih =>
    rw [put]
    by_cases hentry : entry.1 = key
    · rw [if_pos hentry, List.map_cons, List.map_cons, hentry]
    · rw [if_neg hentry, List.map_cons, List.map_cons,
        ih ((List.mem_cons.1 h).resolve_left (Ne.symm hentry))]

theorem map_fst_put (entries : Assoc κ ν) (key : κ) (value : ν) :
    (entries.put key value).map Prod.fst =
      if key ∈ entries.map Prod.fst then entries.map Prod.fst
      else entries.map Prod.fst ++ [key] := by
  split
  · next h => exact map_fst_put_of_mem h value
  · next h => rw [put_of_not_mem h, List.map_append, List.map_singleton]

theorem nodup_put {entries : Assoc κ ν} (h : (entries.map Prod.fst).Nodup) (key : κ) (value : ν) :
    ((entries.put key value).map Prod.fst).Nodup := by
  rw [map_fst_put]
  split
  · exact h
  · next hkey =>
    rw [← List.concat_eq_append]
    exact h.concat hkey

end Assoc

end ComponentLint
