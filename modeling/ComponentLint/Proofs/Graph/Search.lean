import ComponentLint.Proofs.Graph.Reachability
/-
  What the search for components keeps. `path` is the nodes whose visits are under way. Every node
  of the path reaches all that is above it on the stack, and whatever is on the stack reaches a node
  of the path that is not above it; what has been left has only successors that have been entered
  (`Valid`); and the components are whole classes, from which no edge leads to what is in none
  (`ClosedClasses`).

  A visit of a new node leaves such a search behind, with all that was on the stack still in its
  place (`Visited`). Its lowlink is the number of a node of the old stack that it reaches, or no
  less than its own number, and no edge leads from what it has added to the stack to a node of the
  old stack with a number below the lowlink. If the lowlink is the node's own number, nothing leads
  back to the old stack: then all that has been added is one class (`Scanned.valid_close`).
  Otherwise the node reaches a node of the old stack, and so one of the path (`Scanned.valid_stay`).
-/

namespace ComponentLint

variable {α : Type} [DecidableEq α]

namespace Search

/-! ## What the steps of a search change -/

section

variable {s : Search α} {node a : α} {number : Nat}

theorem entered_enter : (s.enter node).entered a = true ↔ a = node ∨ s.entered a = true := by
  unfold enter entered
  rw [Assoc.lookup_put]
  by_cases h : a = node
  · simp [h]
  · simp [h]

theorem index_enter : (s.enter node).index a = if a = node then s.next else s.index a :=
  Assoc.get_put s.indices node a s.next 0

theorem lowlink_enter : (s.enter node).lowlink a = if a = node then s.next else s.lowlink a :=
  Assoc.get_put s.lowlinks node a s.next 0

theorem lowlink_lower :
    (s.lower node number).lowlink a =
      if a = node then min (s.lowlink node) number else s.lowlink a :=
  Assoc.get_put s.lowlinks node a _ 0

theorem unstack_append {front rest : List α} (h : node ∉ front) :
    unstack node (front ++ node :: rest) = (front ++ [node], rest) := by
  induction front with
  | nil => exact if_pos rfl
  | cons b front ih =>
    rw [List.mem_cons, not_or] at h
    rw [List.cons_append, unstack, if_neg (Ne.symm h.1), ih h.2, List.cons_append]

end

/-! ## Searches that are in order -/

/-- Classes of nodes that reach each other, each behind those that it reaches. -/
structure ClosedClasses (g : Graph α) (classes : List (List α)) : Prop where
  closed : ∀ a ∈ classes.flatten, ∀ b ∈ g.successors a, b ∈ classes.flatten
  nonempty : ∀ c ∈ classes, c ≠ []
  nodup : ∀ c ∈ classes, c.Nodup
  together : ∀ c ∈ classes, ∀ a ∈ c, ∀ b, b ∈ c ↔ g.Mutual a b
  inOrder : classes.Pairwise fun c d => ∀ a ∈ c, ∀ b ∈ d, ¬ g.Reaches a b

theorem ClosedClasses.reaches {g : Graph α} {classes : List (List α)} (h : ClosedClasses g classes)
    {a b : α} (ha : a ∈ classes.flatten) (hab : g.Reaches a b) : b ∈ classes.flatten := by
  induction hab with
  | refl => exact ha
  | tail _ hc ih => exact h.closed _ ih _ hc

/-- One more class, from which no edge leads to what is in none. -/
theorem ClosedClasses.snoc {g : Graph α} {classes : List (List α)} (h : ClosedClasses g classes)
    (node : α) {c : List α} (hnodup : c.Nodup) (hclass : ∀ a, a ∈ c ↔ g.Mutual node a)
    (hapart : ∀ a ∈ c, a ∉ classes.flatten)
    (hedges : ∀ a ∈ c, ∀ b ∈ g.successors a, b ∈ classes.flatten ∨ b ∈ c) :
    ClosedClasses g (classes ++ [c]) := by
  have hnode : node ∈ c := (hclass node).2 ⟨.refl, .refl⟩
  constructor
  case closed =>
    intro a ha b hb
    rw [List.flatten_append, List.mem_append, List.flatten_singleton] at ha ⊢
    rcases ha with ha | ha
    · exact Or.inl (h.closed a ha b hb)
    · exact hedges a ha b hb
  case nonempty =>
    exact List.forall_mem_append.2 ⟨h.nonempty, by simpa using List.ne_nil_of_mem hnode⟩
  case nodup => exact List.forall_mem_append.2 ⟨h.nodup, by simpa using hnodup⟩
  case together =>
    refine List.forall_mem_append.2 ⟨h.together, fun d hd a ha b => ?_⟩
    rw [List.mem_singleton.1 hd, hclass] at ha ⊢
    exact ⟨fun hb => ha.symm.trans hb, fun hb => ha.trans hb⟩
  case inOrder =>
    refine List.pairwise_append.2 ⟨h.inOrder, List.pairwise_singleton _ _, ?_⟩
    intro d hd e he a ha b hb hab
    rw [List.mem_singleton.1 he] at hb
    exact hapart b hb (h.reaches (List.mem_flatten.2 ⟨d, hd, ha⟩) hab)

/-- What holds of a search while the visits of the nodes of `path` are under way. -/
structure Valid (g : Graph α) (path : List α) (s : Search α) : Prop where
  node : ∀ a, s.entered a = true → a ∈ g.nodes
  numbered : ∀ a, s.entered a = true → s.index a < s.next
  descending : s.stack.Pairwise fun a b => s.index b < s.index a
  onStack : ∀ a, a ∈ s.onStack ↔ a ∈ s.stack
  entered : ∀ a, s.entered a = true ↔ a ∈ s.stack ∨ a ∈ s.components.flatten
  apart : ∀ a ∈ s.stack, a ∉ s.components.flatten
  stacked : ∀ a ∈ path, a ∈ s.stack
  /-- A node of the path reaches what is above it. -/
  upward : ∀ a ∈ path, ∀ b ∈ s.stack, s.index a ≤ s.index b → g.Reaches a b
  /-- What is on the stack reaches a node of the path that is not above it. -/
  downward : ∀ a ∈ s.stack, ∃ b ∈ path, s.index b ≤ s.index a ∧ g.Reaches a b
  left : ∀ a, s.entered a = true → a ∉ path → ∀ b ∈ g.successors a, s.entered b = true
  classes : ClosedClasses g s.components

/-- What has been entered stays so, under its number, and what has been added to the stack has a
number that was not given before. -/
structure Extends (s later : Search α) : Prop where
  next : s.next ≤ later.next
  entered : ∀ a, s.entered a = true → later.entered a = true
  index : ∀ a, s.entered a = true → later.index a = s.index a
  stack : ∃ added, later.stack = added ++ s.stack ∧
    ∀ a ∈ added, ¬ s.entered a = true ∧ later.entered a = true ∧ s.next ≤ later.index a

theorem Extends.refl (s : Search α) : Extends s s :=
  ⟨Nat.le_refl _, fun _ h => h, fun _ _ => rfl, [], rfl, by simp⟩

theorem Extends.trans {s mid later : Search α} (h : Extends s mid) (k : Extends mid later) :
    Extends s later := by
  obtain ⟨first, hfirst, hbelow⟩ := h.stack
  obtain ⟨second, hsecond, habove⟩ := k.stack
  refine ⟨Nat.le_trans h.next k.next, fun a ha => k.entered a (h.entered a ha), fun a ha => ?_,
    second ++ first, by rw [hsecond, hfirst, List.append_assoc], fun a ha => ?_⟩
  · rw [k.index a (h.entered a ha), h.index a ha]
  · rcases List.mem_append.1 ha with ha | ha
    · obtain ⟨hnew, hlater, hnumber⟩ := habove a ha
      exact ⟨fun hs => hnew (h.entered a hs), hlater, Nat.le_trans h.next hnumber⟩
    · obtain ⟨hnew, hmid, hnumber⟩ := hbelow a ha
      exact ⟨hnew, k.entered a hmid, by rwa [k.index a hmid]⟩

theorem Extends.mem_stack {s later : Search α} (h : Extends s later) {a : α} (ha : a ∈ s.stack) :
    a ∈ later.stack := by
  obtain ⟨added, heq, -⟩ := h.stack
  rw [heq]
  exact List.mem_append_right added ha

/-- What is on the stack and was there before, or else was not entered before. -/
theorem Extends.mem_or_new {s later : Search α} (h : Extends s later) {a : α}
    (ha : a ∈ later.stack) : a ∈ s.stack ∨ ¬ s.entered a = true ∧ s.next ≤ later.index a := by
  obtain ⟨added, heq, hadded⟩ := h.stack
  rw [heq] at ha
  rcases List.mem_append.1 ha with ha | ha
  · exact Or.inr ⟨(hadded a ha).1, (hadded a ha).2.2⟩
  · exact Or.inl ha

theorem extends_enter {s : Search α} {node : α} (h : ¬ s.entered node = true) :
    Extends s (s.enter node) where
  next := Nat.le_succ _
  entered _ ha := entered_enter.2 (Or.inr ha)
  index a ha := by
    have hne : a ≠ node := fun he => h (he ▸ ha)
    rw [index_enter, if_neg hne]
  stack := by
    refine ⟨[node], rfl, fun a ha => ?_⟩
    have hindex : (s.enter node).index node = s.next := by rw [index_enter, if_pos rfl]
    rw [List.mem_singleton.1 ha]
    exact ⟨h, entered_enter.2 (Or.inl rfl), Nat.le_of_eq hindex.symm⟩

section

variable {g : Graph α} {path : List α} {s : Search α} {node : α}

theorem Valid.lower (h : Valid g path s) (node : α) (number : Nat) :
    Valid g path (s.lower node number) :=
  ⟨h.node, h.numbered, h.descending, h.onStack, h.entered, h.apart, h.stacked, h.upward, h.downward,
    h.left, h.classes⟩

theorem Valid.entered_of_mem (h : Valid g path s) {a : α} (ha : a ∈ s.stack) :
    s.entered a = true :=
  (h.entered a).2 (Or.inl ha)

theorem Valid.index_lt (h : Valid g path s) {a : α} (ha : a ∈ s.stack) : s.index a < s.next :=
  h.numbered a (h.entered_of_mem ha)

/-- A new node that the whole path reaches can be entered. -/
theorem Valid.enter (h : Valid g path s) (hnode : node ∈ g.nodes) (hnew : ¬ s.entered node = true)
    (hreach : ∀ a ∈ path, g.Reaches a node) : Valid g (node :: path) (s.enter node) := by
  have hold : ∀ a ∈ s.stack, (s.enter node).index a = s.index a := fun a ha => by
    rw [index_enter, if_neg]
    rintro rfl
    exact hnew (h.entered_of_mem ha)
  have hself : (s.enter node).index node = s.next := by rw [index_enter, if_pos rfl]
  constructor
  case node =>
    intro a ha
    rcases entered_enter.1 ha with rfl | ha
    · exact hnode
    · exact h.node a ha
  case numbered =>
    intro a ha
    show _ < s.next + 1
    rw [index_enter]
    split
    · exact Nat.lt_succ_self _
    · next hne =>
      exact Nat.lt_succ_of_lt (h.numbered a ((entered_enter.1 ha).resolve_left hne))
  case descending =>
    refine .cons (fun a ha => ?_) (h.descending.imp_of_mem fun ha hb hlt => ?_)
    · rw [hself, hold a ha]
      exact h.index_lt ha
    · rwa [hold _ ha, hold _ hb]
  case onStack =>
    intro a
    show a ∈ node :: s.onStack ↔ a ∈ node :: s.stack
    rw [List.mem_cons, List.mem_cons, h.onStack]
  case entered =>
    intro a
    show _ ↔ a ∈ node :: s.stack ∨ a ∈ s.components.flatten
    rw [entered_enter, h.entered, List.mem_cons, or_assoc]
  case apart =>
    intro a ha hdone
    rcases List.mem_cons.1 ha with rfl | ha
    · exact hnew ((h.entered a).2 (Or.inr hdone))
    · exact h.apart a ha hdone
  case stacked =>
    intro a ha
    rcases List.mem_cons.1 ha with rfl | ha
    · exact List.mem_cons_self
    · exact List.mem_cons_of_mem node (h.stacked a ha)
  case upward =>
    intro a ha b hb hle
    rcases List.mem_cons.1 ha with rfl | hpath
    · rcases List.mem_cons.1 hb with rfl | hstack
      · exact .refl
      · rw [hself, hold b hstack] at hle
        exact absurd (h.index_lt hstack) (Nat.not_lt.2 hle)
    · rcases List.mem_cons.1 hb with rfl | hstack
      · exact hreach a hpath
      · rw [hold a (h.stacked a hpath), hold b hstack] at hle
        exact h.upward a hpath b hstack hle
  case downward =>
    intro a ha
    rcases List.mem_cons.1 ha with rfl | ha
    · exact ⟨a, List.mem_cons_self, Nat.le_refl _, .refl⟩
    · obtain ⟨b, hb, hle, hab⟩ := h.downward a ha
      refine ⟨b, List.mem_cons_of_mem node hb, ?_, hab⟩
      rwa [hold a ha, hold b (h.stacked b hb)]
  case left =>
    intro a ha hpath b hb
    rw [List.mem_cons, not_or] at hpath
    exact entered_enter.2 (Or.inr (h.left a ((entered_enter.1 ha).resolve_left hpath.1) hpath.2 b hb))
  case classes => exact h.classes

end

/-! ## Visits -/

/-- What a visit of a new node leaves behind. -/
structure Visited (g : Graph α) (path : List α) (s : Search α) (node : α) (later : Search α) :
    Prop where
  valid : Valid g path later
  kept : Extends s later
  lowlinks : ∀ a, s.entered a = true → later.lowlink a = s.lowlink a
  entered : later.entered node = true
  reached : later.lowlink node < s.next →
    ∃ a ∈ s.stack, later.index a = later.lowlink node ∧ g.Reaches node a
  bounds : ∀ a ∈ later.stack, ¬ s.entered a = true → ∀ b ∈ g.successors a, b ∈ s.stack →
    later.lowlink node ≤ later.index b

/-- A visit under way: the node has been entered in `s`, and `done` of its successors have been
followed. -/
structure Scanned (g : Graph α) (path : List α) (s : Search α) (node : α) (done : List α)
    (later : Search α) : Prop where
  valid : Valid g (node :: path) later
  kept : Extends (s.enter node) later
  lowlinks : ∀ a, s.entered a = true → later.lowlink a = s.lowlink a
  low : later.lowlink node ≤ s.next
  reached : later.lowlink node < s.next →
    ∃ a ∈ s.stack, later.index a = later.lowlink node ∧ g.Reaches node a
  bounds : ∀ a ∈ later.stack, ¬ s.entered a = true → a ≠ node → ∀ b ∈ g.successors a,
    b ∈ s.stack → later.lowlink node ≤ later.index b
  done : ∀ b ∈ done, later.entered b = true ∧ (b ∈ s.stack → later.lowlink node ≤ later.index b)

section

variable {g : Graph α} {path done : List α} {s later : Search α} {node : α}

theorem Extends.lower (h : Extends s later) (node : α) (number : Nat) :
    Extends s (later.lower node number) :=
  ⟨h.next, h.entered, h.index, h.stack⟩

theorem scanned_enter (hs : Valid g path s) (hnode : node ∈ g.nodes) (hnew : ¬ s.entered node = true)
    (hreach : ∀ a ∈ path, g.Reaches a node) : Scanned g path s node [] (s.enter node) := by
  have hlow : (s.enter node).lowlink node = s.next := by rw [lowlink_enter, if_pos rfl]
  constructor
  case valid => exact hs.enter hnode hnew hreach
  case kept => exact .refl _
  case lowlinks =>
    intro a ha
    have hne : a ≠ node := fun he => hnew (he ▸ ha)
    rw [lowlink_enter, if_neg hne]
  case low => exact Nat.le_of_eq hlow
  case reached => exact fun hlt => absurd hlow (Nat.ne_of_lt hlt)
  case bounds =>
    intro a ha hunentered hne
    have hstack : a ∈ s.stack := (List.mem_cons.1 ha).resolve_left hne
    exact absurd (hs.entered_of_mem hstack) hunentered
  case done => exact fun b hb => absurd hb List.not_mem_nil

/-! ### Following a successor -/

section

variable (hs : Valid g path s) (hnew : ¬ s.entered node = true)
  (h : Scanned g path s node done later)

include hnew h

theorem Scanned.extends : Extends s later :=
  (extends_enter hnew).trans h.kept

omit hnew in
theorem Scanned.entered_node : later.entered node = true :=
  h.kept.entered node (entered_enter.2 (Or.inl rfl))

omit hnew in
theorem Scanned.index_node : later.index node = s.next := by
  rw [h.kept.index node (entered_enter.2 (Or.inl rfl)), index_enter, if_pos rfl]

/-- A successor that has been entered before, and is on the stack. -/
theorem Scanned.follow_onStack {b : α} (hb : b ∈ g.successors node) (hstack : b ∈ later.stack) :
    Scanned g path s node (done ++ [b]) (later.lower node (later.index b)) := by
  have hlow : (later.lower node (later.index b)).lowlink node =
      min (later.lowlink node) (later.index b) := by rw [lowlink_lower, if_pos rfl]
  constructor
  case valid => exact h.valid.lower node _
  case kept => exact h.kept.lower node _
  case lowlinks =>
    intro a ha
    have hne : a ≠ node := fun he => hnew (he ▸ ha)
    rw [lowlink_lower, if_neg hne, h.lowlinks a ha]
  case low => exact hlow ▸ Nat.le_trans (Nat.min_le_left _ _) h.low
  case reached =>
    rw [hlow]
    intro hlt
    by_cases hle : later.lowlink node ≤ later.index b
    · rw [Nat.min_eq_left hle] at hlt ⊢
      exact h.reached hlt
    · rw [Nat.min_eq_right (Nat.le_of_not_le hle)] at hlt ⊢
      rcases (h.extends hnew).mem_or_new hstack with hold | ⟨-, hnumber⟩
      · exact ⟨b, hold, rfl, .single hb⟩
      · exact absurd hlt (Nat.not_lt.2 hnumber)
  case bounds =>
    intro a ha hunentered hne c hc hold
    exact hlow ▸ Nat.le_trans (Nat.min_le_left _ _) (h.bounds a ha hunentered hne c hc hold)
  case done =>
    intro c hc
    rw [hlow]
    rcases List.mem_append.1 hc with hc | hc
    · exact ⟨(h.done c hc).1, fun hold => Nat.le_trans (Nat.min_le_left _ _) ((h.done c hc).2 hold)⟩
    · rw [List.mem_singleton.1 hc]
      exact ⟨h.valid.entered_of_mem hstack, fun _ => Nat.min_le_right _ _⟩

/-- A successor that is in a component already. -/
theorem Scanned.follow_left {b : α} (hentered : later.entered b = true) (hstack : b ∉ later.stack) :
    Scanned g path s node (done ++ [b]) later := by
  refine ⟨h.valid, h.kept, h.lowlinks, h.low, h.reached, h.bounds, fun c hc => ?_⟩
  rcases List.mem_append.1 hc with hc | hc
  · exact h.done c hc
  · rw [List.mem_singleton.1 hc]
    exact ⟨hentered, fun hold => absurd ((h.extends hnew).mem_stack hold) hstack⟩

include hs

/-- A successor that is visited. -/
theorem Scanned.follow_visited {b : α} {inner : Search α} (hb : b ∈ g.successors node)
    (hunentered : ¬ later.entered b = true) (hv : Visited g (node :: path) later b inner) :
    Scanned g path s node (done ++ [b]) (inner.lower node (inner.lowlink b)) := by
  have hext := h.extends hnew
  have hlow : (inner.lower node (inner.lowlink b)).lowlink node =
      min (later.lowlink node) (inner.lowlink b) := by
    rw [lowlink_lower, if_pos rfl, hv.lowlinks node h.entered_node]
  have hindex : ∀ a ∈ s.stack, inner.index a = later.index a := fun a ha =>
    hv.kept.index a (h.valid.entered_of_mem (hext.mem_stack ha))
  constructor
  case valid => exact hv.valid.lower node _
  case kept => exact (h.kept.trans hv.kept).lower node _
  case lowlinks =>
    intro a ha
    have hne : a ≠ node := fun he => hnew (he ▸ ha)
    rw [lowlink_lower, if_neg hne, hv.lowlinks a (hext.entered a ha), h.lowlinks a ha]
  case low => exact hlow ▸ Nat.le_trans (Nat.min_le_left _ _) h.low
  case reached =>
    rw [hlow]
    intro hlt
    by_cases hle : later.lowlink node ≤ inner.lowlink b
    · rw [Nat.min_eq_left hle] at hlt ⊢
      obtain ⟨a, ha, hnumber, hreach⟩ := h.reached hlt
      exact ⟨a, ha, (hindex a ha).trans hnumber, hreach⟩
    · rw [Nat.min_eq_right (Nat.le_of_not_le hle)] at hlt ⊢
      obtain ⟨a, ha, hnumber, hreach⟩ := hv.reached (Nat.lt_of_lt_of_le hlt hext.next)
      have hsame := hv.kept.index a (h.valid.entered_of_mem ha)
      rcases hext.mem_or_new ha with hold | ⟨-, hlater⟩
      · exact ⟨a, hold, hnumber, .head hb hreach⟩
      · rw [← hsame, hnumber] at hlater
        exact absurd hlt (Nat.not_lt.2 hlater)
  case bounds =>
    intro a ha hnever hne c hc hold
    show (inner.lower node _).lowlink node ≤ inner.index c
    rw [hlow]
    rcases hv.kept.mem_or_new ha with hstack | ⟨hadded, -⟩
    · have hbound := h.bounds a hstack hnever hne c hc hold
      exact hindex c hold ▸ Nat.le_trans (Nat.min_le_left _ _) hbound
    · exact Nat.le_trans (Nat.min_le_right _ _) (hv.bounds a ha hadded c hc (hext.mem_stack hold))
  case done =>
    intro c hc
    show inner.entered c = true ∧ (c ∈ s.stack → (inner.lower node _).lowlink node ≤ inner.index c)
    rw [hlow]
    rcases List.mem_append.1 hc with hc | hc
    · obtain ⟨hentered, hbound⟩ := h.done c hc
      refine ⟨hv.kept.entered c hentered, fun hold => ?_⟩
      exact hindex c hold ▸ Nat.le_trans (Nat.min_le_left _ _) (hbound hold)
    · rw [List.mem_singleton.1 hc]
      refine ⟨hv.entered, fun hold => absurd ?_ hunentered⟩
      exact hext.entered b (hs.entered_of_mem hold)

/-- Whatever the successor is, following it is part of the visit. -/
theorem Scanned.follow (visit : Search α → α → Option (Search α)) {b : α}
    (hb : b ∈ g.successors node)
    (hvisit : ¬ later.entered b = true →
      ∃ inner, visit later b = some inner ∧ Visited g (node :: path) later b inner) :
    ∃ after, Search.follow visit node later b = some after ∧
      Scanned g path s node (done ++ [b]) after := by
  unfold Search.follow
  by_cases hentered : later.entered b = true
  · rw [if_pos hentered]
    by_cases hstack : b ∈ later.onStack
    · rw [if_pos hstack]
      exact ⟨_, rfl, h.follow_onStack hnew hb ((h.valid.onStack b).1 hstack)⟩
    · rw [if_neg hstack]
      exact ⟨_, rfl, h.follow_left hnew hentered fun hb => hstack ((h.valid.onStack b).2 hb)⟩
  · rw [if_neg hentered]
    obtain ⟨inner, hinner, hv⟩ := hvisit hentered
    rw [hinner]
    exact ⟨_, rfl, h.follow_visited hs hnew hb hentered hv⟩

/-! ### Leaving the node -/

variable (hdone : ∀ b ∈ g.successors node, b ∈ done)

include hdone

omit hs hnew in
/-- No edge from what the visit has added to the stack leads below the lowlink. -/
theorem Scanned.lowlink_le {a b : α} (ha : a ∈ later.stack) (hadded : ¬ s.entered a = true)
    (hb : b ∈ g.successors a) (hold : b ∈ s.stack) : later.lowlink node ≤ later.index b := by
  by_cases hne : a = node
  · exact (h.done b (hdone b (hne ▸ hb))).2 hold
  · exact h.bounds a ha hadded hne b hb hold

omit hs hnew in
theorem Scanned.entered_successor {a b : α} (ha : later.entered a = true) (hpath : a ∉ path)
    (hb : b ∈ g.successors a) : later.entered b = true := by
  by_cases hne : a = node
  · exact (h.done b (hdone b (hne ▸ hb))).1
  · exact h.valid.left a ha (fun hmem => (List.mem_cons.1 hmem).elim hne hpath) b hb

/-- A path from what the visit has added to the stack stays there or ends in a component, if the
lowlink of the node is its own number. -/
theorem Scanned.reaches_added (hroot : later.lowlink node = later.index node) {a b : α}
    (ha : a ∈ later.stack) (hadded : ¬ s.entered a = true) (hab : g.Reaches a b) :
    (b ∈ later.stack ∧ ¬ s.entered b = true) ∨ b ∈ later.components.flatten := by
  induction hab with
  | refl => exact Or.inl ⟨ha, hadded⟩
  | @tail b c _ hc ih =>
    rcases ih with ⟨hb, hnever⟩ | hb
    · have hpath : b ∉ path := fun hb => hnever (hs.entered_of_mem (hs.stacked b hb))
      have hentered := h.valid.entered_of_mem hb
      rcases (h.valid.entered c).1 (h.entered_successor hdone hentered hpath hc) with
        hstack | hcomponent
      · rcases (h.extends hnew).mem_or_new hstack with hold | ⟨hadded, -⟩
        · -- an edge back to the old stack would have lowered the lowlink
          have hle := h.lowlink_le hdone hb hnever hc hold
          rw [hroot, h.index_node, (h.extends hnew).index c (hs.entered_of_mem hold)] at hle
          exact absurd (hs.index_lt hold) (Nat.not_lt.2 hle)
        · exact Or.inl ⟨hstack, hadded⟩
      · exact Or.inr hcomponent
    · exact Or.inr (h.valid.classes.closed b hb c hc)

/-- If its lowlink is its own number, the node is in one class with what is on the stack above the
old stack, and with nothing else. -/
theorem Scanned.mutual_node_iff (hroot : later.lowlink node = later.index node) {a : α} :
    g.Mutual node a ↔ a ∈ later.stack ∧ ¬ s.entered a = true := by
  have hnode : node ∈ later.stack := h.valid.stacked node List.mem_cons_self
  constructor
  · intro hmutual
    rcases h.reaches_added hs hnew hdone hroot hnode hnew hmutual.1 with hadded | hcomponent
    · exact hadded
    · exact absurd (h.valid.classes.reaches hcomponent hmutual.2) (h.valid.apart node hnode)
  · rintro ⟨ha, hadded⟩
    have habove : later.index node ≤ later.index a := by
      rw [h.index_node]
      rcases (h.extends hnew).mem_or_new ha with hold | ⟨-, hle⟩
      · exact absurd (hs.entered_of_mem hold) hadded
      · exact hle
    refine ⟨h.valid.upward node List.mem_cons_self a ha habove, ?_⟩
    obtain ⟨b, hb, -, hab⟩ := h.valid.downward a ha
    rcases List.mem_cons.1 hb with rfl | hb
    · exact hab
    · have hold := hs.stacked b hb
      rcases h.reaches_added hs hnew hdone hroot ha hadded hab with ⟨-, hnever⟩ | hcomponent
      · exact absurd (hs.entered_of_mem hold) hnever
      · exact absurd hcomponent (h.valid.apart b ((h.extends hnew).mem_stack hold))

omit hdone in
/-- Of what is on the stack, the old part is what had been entered before. -/
theorem Scanned.mem_old_iff {a : α} : a ∈ s.stack ↔ a ∈ later.stack ∧ s.entered a = true := by
  constructor
  · exact fun ha => ⟨(h.extends hnew).mem_stack ha, hs.entered_of_mem ha⟩
  · rintro ⟨ha, hentered⟩
    exact ((h.extends hnew).mem_or_new ha).resolve_right fun hx => hx.1 hentered

omit hdone in
/-- Taking the node and what is above it off the stack takes off what the visit has added. -/
theorem Scanned.exists_added :
    ∃ added, unstack node later.stack = (added, s.stack) ∧ later.stack = added ++ s.stack ∧
      ∀ a, a ∈ added ↔ a ∈ later.stack ∧ ¬ s.entered a = true := by
  obtain ⟨front, hstack, hfront⟩ := h.kept.stack
  have hnot : node ∉ front := fun hmem => (hfront node hmem).1 (entered_enter.2 (Or.inl rfl))
  have hadded : later.stack = (front ++ [node]) ++ s.stack := by
    rw [hstack, List.append_assoc]
    rfl
  refine ⟨front ++ [node], by rw [← unstack_append hnot, hstack]; rfl, hadded, fun a => ?_⟩
  constructor
  · intro ha
    refine ⟨hadded ▸ List.mem_append_left _ ha, ?_⟩
    rcases List.mem_append.1 ha with ha | ha
    · exact fun hold => (hfront a ha).1 (entered_enter.2 (Or.inr hold))
    · exact List.mem_singleton.1 ha ▸ hnew
  · rintro ⟨ha, hnever⟩
    rw [hadded] at ha
    exact (List.mem_append.1 ha).resolve_right fun hold => hnever ((h.mem_old_iff hs hnew).1 hold).2

/-- What the visit has added is one more class, if the lowlink of the node is its own number. -/
theorem Scanned.closedClasses_snoc (hroot : later.lowlink node = later.index node) {added : List α}
    (hstack : later.stack = added ++ s.stack)
    (hadded : ∀ a, a ∈ added ↔ a ∈ later.stack ∧ ¬ s.entered a = true) :
    ClosedClasses g (later.components ++ [added]) := by
  refine h.valid.classes.snoc node ?_ (fun a => ?_) (fun a ha => ?_) (fun a ha b hb => ?_)
  · have hdescending := h.valid.descending
    rw [hstack] at hdescending
    refine List.Pairwise.imp (fun hlt => ?_) (List.pairwise_append.1 hdescending).1
    rintro rfl
    exact Nat.lt_irrefl _ hlt
  · rw [hadded, h.mutual_node_iff hs hnew hdone hroot]
  · exact h.valid.apart a ((hadded a).1 ha).1
  · obtain ⟨hlater, hnever⟩ := (hadded a).1 ha
    rw [hadded]
    exact (h.reaches_added hs hnew hdone hroot hlater hnever (.single hb)).symm

/-- The node closes its component. -/
theorem Scanned.valid_close (hroot : later.lowlink node = later.index node) :
    Valid g path (later.close node) ∧ (later.close node).stack = s.stack := by
  obtain ⟨added, hpop, hstack, hadded⟩ := h.exists_added hs hnew
  have hclose : later.close node =
      { later with
        stack := s.stack
        onStack := later.onStack.filter (· ∉ added)
        components := later.components ++ [added] } := by
    rw [close, hpop]
  have hold : ∀ a, a ∈ s.stack ↔ a ∈ later.stack ∧ a ∉ added := fun a => by
    rw [h.mem_old_iff hs hnew, hadded]
    tauto
  have hflatten : ∀ a, a ∈ (later.components ++ [added]).flatten ↔
      a ∈ later.components.flatten ∨ a ∈ added := fun a => by
    rw [List.flatten_append, List.mem_append, List.flatten_singleton]
  rw [hclose]
  refine ⟨?_, rfl⟩
  constructor
  case node => exact h.valid.node
  case numbered => exact h.valid.numbered
  case descending => exact (List.pairwise_append.1 (hstack ▸ h.valid.descending)).2.1
  case onStack =>
    intro a
    show a ∈ later.onStack.filter (· ∉ added) ↔ a ∈ s.stack
    rw [List.mem_filter, decide_eq_true_eq, h.valid.onStack, hold]
  case entered =>
    intro a
    show later.entered a = true ↔ a ∈ s.stack ∨ a ∈ (later.components ++ [added]).flatten
    rw [h.valid.entered, hflatten, hold, hadded]
    tauto
  case apart =>
    intro a ha hmem
    obtain ⟨hlater, hout⟩ := (hold a).1 ha
    exact ((hflatten a).1 hmem).elim (h.valid.apart a hlater) hout
  case stacked => exact hs.stacked
  case upward =>
    intro a ha b hb hle
    exact h.valid.upward a (List.mem_cons_of_mem node ha) b ((hold b).1 hb).1 hle
  case downward =>
    intro a ha
    obtain ⟨b, hb, hle, hab⟩ := h.valid.downward a ((hold a).1 ha).1
    refine ⟨b, (List.mem_cons.1 hb).resolve_left ?_, hle, hab⟩
    rintro rfl
    rw [h.index_node, (h.extends hnew).index a (hs.entered_of_mem ha)] at hle
    exact absurd (hs.index_lt ha) (Nat.not_lt.2 hle)
  case left => exact fun a ha hpath b hb => h.entered_successor hdone ha hpath hb
  case classes => exact h.closedClasses_snoc hs hnew hdone hroot hstack hadded

omit hs in
/-- The node stays on the stack. -/
theorem Scanned.valid_stay (hroot : later.lowlink node ≠ later.index node) :
    Valid g path later ∧ later.lowlink node < s.next := by
  have hlow : later.lowlink node < s.next :=
    Nat.lt_of_le_of_ne h.low fun he => hroot (he.trans h.index_node.symm)
  refine ⟨?_, hlow⟩
  constructor
  case node => exact h.valid.node
  case numbered => exact h.valid.numbered
  case descending => exact h.valid.descending
  case onStack => exact h.valid.onStack
  case entered => exact h.valid.entered
  case apart => exact h.valid.apart
  case stacked => exact fun a ha => h.valid.stacked a (List.mem_cons_of_mem node ha)
  case upward => exact fun a ha => h.valid.upward a (List.mem_cons_of_mem node ha)
  case downward =>
    intro a ha
    obtain ⟨b, hb, hle, hab⟩ := h.valid.downward a ha
    rcases List.mem_cons.1 hb with rfl | hb
    · -- the node reaches one of the old stack, and that one a node of the path
      obtain ⟨c, hc, hnumber, hbc⟩ := h.reached hlow
      obtain ⟨d, hd, hdc, hcd⟩ := h.valid.downward c ((h.extends hnew).mem_stack hc)
      rw [hnumber] at hdc
      have hbelow : later.index d < later.index b := by
        rw [h.index_node]
        exact Nat.lt_of_le_of_lt hdc hlow
      refine ⟨d, (List.mem_cons.1 hd).resolve_left ?_, ?_, hab.trans (hbc.trans hcd)⟩
      · rintro rfl
        exact Nat.lt_irrefl _ hbelow
      · exact Nat.le_trans (Nat.le_of_lt hbelow) hle
    · exact ⟨b, hb, hle, hab⟩
  case left => exact fun a ha hpath b hb => h.entered_successor hdone ha hpath hb
  case classes => exact h.valid.classes

/-- A node is left behind as a visit leaves it. -/
theorem Scanned.leave : Visited g path s node (later.leave node) := by
  have hext := h.extends hnew
  unfold Search.leave
  by_cases hroot : later.lowlink node = later.index node
  · rw [if_pos hroot]
    obtain ⟨hvalid, hstack⟩ := h.valid_close hs hnew hdone hroot
    constructor
    case valid => exact hvalid
    case kept => exact ⟨hext.next, hext.entered, hext.index, [], hstack, by simp⟩
    case lowlinks => exact h.lowlinks
    case entered => exact h.entered_node
    case reached =>
      intro hlt
      exact absurd (hroot.trans h.index_node) (Nat.ne_of_lt hlt)
    case bounds =>
      intro a ha hnever
      rw [hstack] at ha
      exact absurd (hs.entered_of_mem ha) hnever
  · rw [if_neg hroot]
    obtain ⟨hvalid, hlow⟩ := h.valid_stay hnew hdone hroot
    constructor
    case valid => exact hvalid
    case kept => exact hext
    case lowlinks => exact h.lowlinks
    case entered => exact h.entered_node
    case reached => exact h.reached
    case bounds => exact fun a ha hnever b hb hold => h.lowlink_le hdone ha hnever hb hold

end

end

theorem valid_empty (g : Graph α) : Valid g [] {} := by
  have hclasses : ClosedClasses g [] := by constructor <;> simp
  constructor
  case classes => exact hclasses
  all_goals simp [Search.entered]

end Search

namespace Graph

open Search

/-- The number of nodes that a search has not entered: the nesting that is still to come. -/
def unentered (g : Graph α) (s : Search α) : Nat :=
  (g.nodes.filter fun a => !s.entered a).length

theorem unentered_le {g : Graph α} {s later : Search α}
    (h : ∀ a, s.entered a = true → later.entered a = true) : g.unentered later ≤ g.unentered s := by
  unfold unentered
  rw [← List.countP_eq_length_filter, ← List.countP_eq_length_filter]
  refine List.countP_mono_left fun a _ ha => ?_
  rw [Bool.not_eq_true', ← Bool.not_eq_true] at ha ⊢
  exact fun hs => ha (h a hs)

theorem unentered_enter {g : Graph α} {s : Search α} {node : α} (hnode : node ∈ g.nodes)
    (hnew : ¬ s.entered node = true) : g.unentered (s.enter node) < g.unentered s := by
  unfold unentered
  have hfilter : g.nodes.filter (fun a => !(s.enter node).entered a) =
      (g.nodes.filter fun a => !s.entered a).filter (· ≠ node) := by
    rw [List.filter_filter]
    refine List.filter_congr fun a _ => ?_
    rw [Bool.eq_iff_iff]
    simp [entered_enter, ← Bool.not_eq_true]
  rw [hfilter, List.length_filter_lt_length_iff_exists]
  exact ⟨node, List.mem_filter.2 ⟨hnode, by simpa using hnew⟩, by simp⟩

/-- Visits that go as visits should, of any node that is new and that the whole path reaches. -/
def VisitsAll (le : α → α → Bool) (g : Graph α) (depth : Nat) : Prop :=
  ∀ path s node, Valid g path s → node ∈ g.nodes → ¬ s.entered node = true →
    (∀ a ∈ path, g.Reaches a node) → g.unentered s ≤ depth →
    ∃ later, g.visit le depth s node = some later ∧ Visited g path s node later

/-- Following successors one after another. -/
theorem foldlM_follow {le : α → α → Bool} {g : Graph α} {depth : Nat} (hvisits : VisitsAll le g depth)
    {path : List α} {s : Search α} {node : α} (hs : Valid g path s) (hnew : ¬ s.entered node = true)
    (hreach : ∀ a ∈ path, g.Reaches a node) (hdepth : g.unentered (s.enter node) ≤ depth)
    (next done : List α) (later : Search α) (hnext : ∀ b ∈ next, b ∈ g.successors node)
    (h : Scanned g path s node done later) :
    ∃ after, next.foldlM (follow (g.visit le depth) node) later = some after ∧
      Scanned g path s node (done ++ next) after := by
  induction next generalizing done later with
  | nil => exact ⟨later, rfl, by rwa [List.append_nil]⟩
  | cons b next ih =>
    have hb := hnext b List.mem_cons_self
    obtain ⟨mid, hmid, hscanned⟩ := h.follow hs hnew (g.visit le depth) hb fun hunentered => by
      refine hvisits (node :: path) later b h.valid (mem_nodes_of_mem_successors hb) hunentered ?_
        (Nat.le_trans (unentered_le h.kept.entered) hdepth)
      intro a ha
      rcases List.mem_cons.1 ha with rfl | ha
      · exact .single hb
      · exact (hreach a ha).tail hb
    rw [List.foldlM_cons, hmid]
    obtain ⟨after, hafter, hdone⟩ :=
      ih (done ++ [b]) mid (fun c hc => hnext c (List.mem_cons_of_mem b hc)) hscanned
    exact ⟨after, hafter, by rwa [List.append_assoc] at hdone⟩

/-- Nesting as deep as there are nodes left to be entered is enough. -/
theorem visitsAll (le : α → α → Bool) (g : Graph α) (depth : Nat) : VisitsAll le g depth := by
  induction depth with
  | zero =>
    intro path s node _ hnode hnew _ hdepth
    have := unentered_enter hnode hnew
    omega
  | succ depth ih =>
    intro path s node hs hnode hnew hreach hdepth
    have hinner : g.unentered (s.enter node) ≤ depth := by
      have := unentered_enter hnode hnew
      omega
    obtain ⟨later, hlater, hscanned⟩ := foldlM_follow ih hs hnew hreach hinner
      (sortBy le (g.successors node)) [] _ (fun b hb => mem_sortBy.1 hb)
      (scanned_enter hs hnode hnew hreach)
    rw [visit, hlater]
    exact ⟨_, rfl, hscanned.leave hs hnew fun b hb => mem_sortBy.2 hb⟩

/-- A search from one node after another. -/
theorem foldlM_visit (le : α → α → Bool) {g : Graph α} {depth : Nat} (roots : List α) {s : Search α}
    (hroots : ∀ a ∈ roots, a ∈ g.nodes) (hs : Valid g [] s) (hdepth : g.unentered s ≤ depth) :
    ∃ later, roots.foldlM
        (fun s node => if s.entered node then some s else g.visit le depth s node) s = some later ∧
      Valid g [] later ∧ (∀ a, s.entered a = true → later.entered a = true) ∧
      ∀ a ∈ roots, later.entered a = true := by
  induction roots generalizing s with
  | nil => exact ⟨s, rfl, hs, fun _ h => h, by simp⟩
  | cons root roots ih =>
    have hstep : ∃ mid, (if s.entered root then some s else g.visit le depth s root) = some mid ∧
        Valid g [] mid ∧ (∀ a, s.entered a = true → mid.entered a = true) ∧
        mid.entered root = true := by
      by_cases hentered : s.entered root = true
      · exact ⟨s, if_pos hentered, hs, fun _ h => h, hentered⟩
      · obtain ⟨mid, hmid, hv⟩ := visitsAll le g depth [] s root hs (hroots root List.mem_cons_self)
          hentered (by simp) hdepth
        exact ⟨mid, by rw [if_neg hentered, hmid], hv.valid, hv.kept.entered, hv.entered⟩
    obtain ⟨mid, hmid, hvalid, hkept, hroot⟩ := hstep
    obtain ⟨later, hlater, hvalid', hkept', hall⟩ :=
      ih (fun a ha => hroots a (List.mem_cons_of_mem root ha)) hvalid
        (Nat.le_trans (unentered_le hkept) hdepth)
    rw [List.foldlM_cons, hmid]
    refine ⟨later, hlater, hvalid', fun a ha => hkept' a (hkept a ha), fun a ha => ?_⟩
    rcases List.mem_cons.1 ha with rfl | ha
    · exact hkept' a hroot
    · exact hall a ha

/-- The search ends, in order, with every listed node entered. -/
theorem exists_search (le : α → α → Bool) (g : Graph α) {depth : Nat} (h : g.nodes.length ≤ depth) :
    ∃ s, g.search? le depth = some s ∧ Valid g [] s ∧ ∀ a ∈ g.map Prod.fst, s.entered a = true := by
  obtain ⟨s, hs, hvalid, -, hall⟩ := foldlM_visit le (sortBy le (g.map Prod.fst))
    (fun a ha => mem_nodes.2 (Or.inl (mem_sortBy.1 ha))) (valid_empty g)
    (Nat.le_trans (List.length_filter_le _ _) h)
  exact ⟨s, hs, hvalid, fun a ha => hall a (mem_sortBy.2 ha)⟩

end Graph

end ComponentLint
