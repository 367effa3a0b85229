import Mathlib.Data.List.Forall2
/-
  Addresses in a list of trees. An address gives the place of a root and then, level by level, of a
  child. Pre-order is stated on addresses (`Before`), apart from any walk through the trees, and so
  is what comes first without a property (`FirstWithout`). A walk finds it step by step: at a root,
  inside it, or behind it.
-/

namespace ComponentLint

namespace Address

variable {α β : Type}

/-- What an address leads to below `a`: each number is a place among the children. -/
def below? (children : α → List α) (a : α) : List Nat → Option α
  | [] => some a
  | i :: address => (children a)[i]?.bind fun b => below? children b address

/-- What an address leads to: its first number is a place among the roots. -/
def at? (children : α → List α) (roots : List α) : List Nat → Option α
  | [] => none
  | i :: address => roots[i]?.bind fun a => below? children a address

theorem at?_nil (children : α → List α) (roots : List α) : at? children roots [] = none :=
  rfl

/-- Pre-order. -/
inductive Before : List Nat → List Nat → Prop where
  /-- What stands somewhere comes before all that is inside it. -/
  | inside (p : List Nat) (i : Nat) (q : List Nat) : Before p (p ++ i :: q)
  /-- Of two siblings the earlier one, with all that is inside it, comes first. -/
  | sibling (common : List Nat) {i j : Nat} (h : i < j) (p q : List Nat) :
    Before (common ++ i :: p) (common ++ j :: q)

theorem not_before_nil {p : List Nat} : ¬ Before p [] := by
  intro h
  generalize hq : [] = q at h
  cases h with
  | inside _ i q => simp at hq
  | sibling common hij p q => simp at hq

theorem before_cons_cons_iff {i j : Nat} {p q : List Nat} :
    Before (i :: p) (j :: q) ↔ i < j ∨ i = j ∧ Before p q := by
  constructor
  · intro h
    generalize hp : i :: p = p' at h
    generalize hq : j :: q = q' at h
    cases h with
    | inside _ k r =>
      rw [← hp, List.cons_append] at hq
      obtain ⟨rfl, rfl⟩ := List.cons.inj hq
      exact .inr ⟨rfl, .inside p k r⟩
    | sibling common hij r r' =>
      cases common with
      | nil =>
        obtain ⟨rfl, -⟩ := List.cons.inj hp
        obtain ⟨rfl, -⟩ := List.cons.inj hq
        exact .inl hij
      | cons k common =>
        obtain ⟨rfl, rfl⟩ := List.cons.inj hp
        obtain ⟨rfl, rfl⟩ := List.cons.inj hq
        exact .inr ⟨rfl, .sibling common hij r r'⟩
  · rintro (hij | ⟨rfl, h⟩)
    · exact .sibling [] hij p q
    · cases h with
      | inside _ k r => exact .inside (i :: p) k r
      | sibling common hij r r' => exact .sibling (i :: common) hij r r'

theorem before_trichotomy (p q : List Nat) : Before p q ∨ p = q ∨ Before q p := by
  induction p generalizing q with
  | nil =>
    cases q with
    | nil => exact .inr (.inl rfl)
    | cons j q => exact .inl (.inside [] j q)
  | cons i p ih =>
    cases q with
    | nil => exact .inr (.inr (.inside [] i p))
    | cons j q =>
      rw [before_cons_cons_iff, before_cons_cons_iff]
      rcases Nat.lt_trichotomy i j with hij | rfl | hji
      · exact .inl (.inl hij)
      · rcases ih q with h | rfl | h
        · exact .inl (.inr ⟨rfl, h⟩)
        · exact .inr (.inl rfl)
        · exact .inr (.inr (.inr ⟨rfl, h⟩))
      · exact .inr (.inr (.inl hji))

/-! ## The first in pre-order -/

/-- Whatever an address leads to has the property. -/
def Everywhere (lookup? : List Nat → Option α) (p : α → Prop) : Prop :=
  ∀ address a, lookup? address = some a → p a

/-- The address leads to `a`, which lacks the property, and no earlier address to anything that
lacks it. -/
structure FirstWithout (lookup? : List Nat → Option α) (p : α → Prop) (address : List Nat) (a : α) :
    Prop where
  found : lookup? address = some a
  lacks : ¬ p a
  first : ∀ earlier b, Before earlier address → lookup? earlier = some b → p b

variable {children : α → List α} {p : α → Prop} {a : α} {roots : List α}

theorem everywhere_below?_iff :
    Everywhere (below? children a) p ↔ p a ∧ Everywhere (at? children (children a)) p := by
  constructor
  · intro h
    refine ⟨h [] a rfl, fun address b hb => ?_⟩
    cases address with
    | nil => exact absurd hb (by simp [at?_nil])
    | cons i address => exact h (i :: address) b hb
  · rintro ⟨ha, hinside⟩ address b hb
    cases address with
    | nil => exact Option.some.inj hb ▸ ha
    | cons i address => exact hinside (i :: address) b hb

theorem everywhere_at?_iff :
    Everywhere (at? children roots) p ↔ ∀ a ∈ roots, Everywhere (below? children a) p := by
  constructor
  · intro h a ha address b hb
    obtain ⟨i, hi⟩ := List.mem_iff_getElem?.1 ha
    refine h (i :: address) b ?_
    rw [at?, hi]
    exact hb
  · intro h address b hb
    cases address with
    | nil => exact absurd hb (by simp [at?_nil])
    | cons i address =>
      obtain ⟨a, ha, hb⟩ := Option.bind_eq_some_iff.1 hb
      exact h a (List.mem_of_getElem? ha) address b hb

theorem firstWithout_self (ha : ¬ p a) : FirstWithout (below? children a) p [] a :=
  ⟨rfl, ha, fun _ _ hearlier => absurd hearlier not_before_nil⟩

namespace FirstWithout

variable {address : List Nat} {b : α}

/-- As any two addresses stand in pre-order, only one thing comes first. -/
theorem unique {lookup? : List Nat → Option α} {other : List Nat} {c : α}
    (h : FirstWithout lookup? p address b) (h' : FirstWithout lookup? p other c) : b = c := by
  rcases before_trichotomy address other with hlt | rfl | hlt
  · exact absurd (h'.first address b hlt h.found) h.lacks
  · exact Option.some.inj (h.found.symm.trans h'.found)
  · exact absurd (h.first other c hlt h'.found) h'.lacks

theorem inside (h : FirstWithout (at? children (children a)) p address b) (ha : p a) :
    FirstWithout (below? children a) p address b := by
  refine ⟨?_, h.lacks, fun earlier c hearlier hc => ?_⟩
  · cases address with
    | nil => exact absurd h.found (by simp [at?_nil])
    | cons i address => exact h.found
  · cases earlier with
    | nil => exact Option.some.inj hc ▸ ha
    | cons i earlier => exact h.first (i :: earlier) c hearlier hc

theorem inHead (h : FirstWithout (below? children a) p address b) :
    FirstWithout (at? children (a :: roots)) p (0 :: address) b := by
  refine ⟨h.found, h.lacks, fun earlier c hearlier hc => ?_⟩
  cases earlier with
  | nil => exact absurd hc (by simp [at?_nil])
  | cons i earlier =>
    rcases before_cons_cons_iff.1 hearlier with hi | ⟨rfl, hbefore⟩
    · exact absurd hi (Nat.not_lt_zero i)
    · exact h.first earlier c hbefore hc

theorem inTail (h : FirstWithout (at? children roots) p address b)
    (ha : Everywhere (below? children a) p) :
    ∃ address', FirstWithout (at? children (a :: roots)) p address' b := by
  cases address with
  | nil => exact absurd h.found (by simp [at?_nil])
  | cons i address =>
    refine ⟨(i + 1) :: address, h.found, h.lacks, fun earlier c hearlier hc => ?_⟩
    cases earlier with
    | nil => exact absurd hc (by simp [at?_nil])
    | cons j earlier =>
      cases j with
      | zero => exact ha earlier c hc
      | succ j =>
        rw [before_cons_cons_iff, Nat.add_lt_add_iff_right, Nat.add_right_cancel_iff,
          ← before_cons_cons_iff] at hearlier
        exact h.first (j :: earlier) c hearlier hc

end FirstWithout

/-! ## Two trees -/

section

variable {children' : β → List β} {R : α → β → Prop}

theorem rel_getElem?_bind {f : α → Option α} {g : β → Option β}
    (hfg : ∀ a b, R a b → Option.Rel R (f a) (g b)) {l : List α} {m : List β}
    (h : List.Forall₂ R l m) (i : Nat) : Option.Rel R (l[i]?.bind f) (m[i]?.bind g) := by
  induction h generalizing i with
  | nil => exact .none
  | cons hab _ ih =>
    cases i with
    | zero => exact hfg _ _ hab
    | succ i => exact ih i

variable (hchildren : ∀ a b, R a b → List.Forall₂ R (children a) (children' b))

include hchildren

theorem rel_below? {a : α} {b : β} (hab : R a b) (address : List Nat) :
    Option.Rel R (below? children a address) (below? children' b address) := by
  induction address generalizing a b with
  | nil => exact .some hab
  | cons i address ih => exact rel_getElem?_bind (fun _ _ h => ih h) (hchildren a b hab) i

/-- When related things have related children, an address leads to related things or, on both
sides, to nothing. -/
theorem rel_at? {roots : List α} {roots' : List β} (h : List.Forall₂ R roots roots')
    (address : List Nat) :
    Option.Rel R (at? children roots address) (at? children' roots' address) := by
  cases address with
  | nil => exact .none
  | cons i address => exact rel_getElem?_bind (fun _ _ hab => rel_below? hchildren hab address) h i

end

end Address

end ComponentLint
