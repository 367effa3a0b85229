import ComponentLint.Graph.TopologicalOrder
import ComponentLint.Proofs.Lists
import Mathlib.Data.List.Nodup
/-
  The placing of nodes, said without the bookkeeping: `placeReady` looks at all nodes that remain,
  takes the least of those whose dependencies have been placed, and goes on. With numbers of its own
  for every node and an order that tells nodes apart, the queue gives the same
  (`topologicalOrder_eq_placeReady`).

  When the numbers of `placed` have been placed, a node waits for those of its dependencies that are
  not among them, and the queue has each node that waits for nothing exactly once, in ascending
  order (`Queued`). Releasing those that follow the node just placed, one after another, keeps this
  (`Releasing.release`): a follower waited for that node, so it was not in the queue before.
-/

namespace ComponentLint

variable {ι β : Type}

/-- The first of the least elements. -/
def least? (le : β → β → Bool) : List β → Option β
  | [] => none
  | b :: bs =>
    match least? le bs with
    | none => some b
    | some c => if le b c then some b else some c

/-- Places up to so many of the remaining nodes after those already placed. -/
def placeReady [DecidableEq ι] (id : β → ι) (dependencies : β → List ι) (le : β → β → Bool) :
    Nat → List ι → List β → List β
  | 0, _, _ => []
  | count + 1, placed, remaining =>
    match least? le (remaining.filter fun b => (dependencies b).all placed.contains) with
    | none => []
    | some b =>
      b :: placeReady id dependencies le count (id b :: placed)
        (remaining.filter fun c => id c ≠ id b)

/-! ## The least element -/

theorem least?_eq_none {le : β → β → Bool} {l : List β} : least? le l = none ↔ l = [] := by
  cases l with
  | nil => simp [least?]
  | cons b l =>
    simp only [least?, reduceCtorEq, iff_false]
    split
    · simp
    · split <;> simp

theorem mem_of_least? {le : β → β → Bool} {l : List β} {b : β} (h : least? le l = some b) :
    b ∈ l := by
  induction l generalizing b with
  | nil => simp [least?] at h
  | cons a l ih =>
    rw [least?] at h
    split at h
    · simp [Option.some.inj h]
    · next c hc =>
      split at h
      · simp [Option.some.inj h]
      · rw [← Option.some.inj h]
        exact List.mem_cons_of_mem a (ih hc)

theorem le_of_least? {le : β → β → Bool} (htotal : ∀ a b, le a b = true ∨ le b a = true)
    (htrans : ∀ a b c, le a b = true → le b c = true → le a c = true) {l : List β} {b : β}
    (h : least? le l = some b) : ∀ c ∈ l, le b c = true := by
  have hrefl : ∀ a, le a a = true := fun a => (htotal a a).elim (fun h => h) fun h => h
  induction l generalizing b with
  | nil => simp
  | cons a l ih =>
    rw [least?] at h
    split at h
    · next hl =>
      rw [least?_eq_none.1 hl, ← Option.some.inj h]
      simpa using hrefl a
    · next d hd =>
      have hmin := ih hd
      intro c hc
      split at h
      · next had =>
        rw [← Option.some.inj h]
        rcases List.mem_cons.1 hc with rfl | hc
        · exact hrefl c
        · exact htrans a d c had (hmin c hc)
      · next had =>
        rw [← Option.some.inj h]
        rcases List.mem_cons.1 hc with rfl | hc
        · exact (htotal c d).resolve_left had
        · exact hmin c hc

theorem least?_cons_of_le {le : β → β → Bool} {b : β} {l : List β}
    (h : ∀ c ∈ l, le b c = true) : least? le (b :: l) = some b := by
  rw [least?]
  split
  · rfl
  · next c hc => rw [if_pos (h c (mem_of_least? hc))]

/-! ## Nodes with numbers of their own -/

/-- Every node has a number of its own, and the order is total and tells nodes apart. -/
structure Ranked (id : β → ι) (le : β → β → Bool) (nodes : List β) : Prop where
  nodup : (nodes.map id).Nodup
  total : ∀ a b, le a b = true ∨ le b a = true
  trans : ∀ a b c, le a b = true → le b c = true → le a c = true
  antisymm : ∀ a b, le a b = true → le b a = true → id a = id b

theorem Ranked.eq {id : β → ι} {le : β → β → Bool} {nodes : List β} (h : Ranked id le nodes) {a b : β}
    (ha : a ∈ nodes) (hb : b ∈ nodes) (hid : id a = id b) : a = b :=
  List.inj_on_of_nodup_map h.nodup ha hb hid

variable [DecidableEq ι] {id : β → ι} {dependencies : β → List ι} {le : β → β → Bool}

/-! ## Followers -/

/-- The map has, under every number, the nodes of its edges, each once. -/
structure ListsFollowers (id : β → ι) (edges : List (ι × β)) (outgoing : Assoc ι (List β)) : Prop where
  mem : ∀ i b, b ∈ outgoing.get i [] ↔ (i, b) ∈ edges
  nodup : ∀ i, ((outgoing.get i []).map id).Nodup

theorem ListsFollowers.add {done : List (ι × β)} {outgoing : Assoc ι (List β)}
    (h : ListsFollowers id done outgoing) (edge : ι × β)
    (hid : ∀ e ∈ done, id e.2 = id edge.2 → e.2 = edge.2) :
    ListsFollowers id (done ++ [edge]) (addFollower id outgoing edge) := by
  unfold addFollower
  dsimp only
  split
  · next hknown =>
    -- a node of this number is the node itself, so the edge is known
    obtain ⟨c, hc, he⟩ := List.any_eq_true.1 hknown
    have hedge : edge ∈ done := by
      have hmem := (h.mem edge.1 c).1 hc
      have hsame : c = edge.2 := hid _ hmem (of_decide_eq_true he)
      rwa [hsame] at hmem
    refine ⟨fun i b => ?_, h.nodup⟩
    rw [h.mem, List.mem_append, List.mem_singleton]
    exact ⟨Or.inl, fun hx => hx.elim (fun hx => hx) fun hx => hx ▸ hedge⟩
  · next hknown =>
    have hnew : ∀ c ∈ outgoing.get edge.1 [], id c ≠ id edge.2 := by simpa using hknown
    constructor
    case mem =>
      intro i b
      rw [Assoc.get_put, List.mem_append, List.mem_singleton]
      by_cases hi : i = edge.1
      · rw [if_pos hi, List.mem_append, List.mem_singleton, h.mem, hi]
        exact or_congr_right ⟨fun hb => hb ▸ rfl, fun hb => congrArg Prod.snd hb⟩
      · rw [if_neg hi, h.mem]
        exact (or_iff_left fun he => hi (congrArg Prod.fst he)).symm
    case nodup =>
      intro i
      rw [Assoc.get_put]
      by_cases hi : i = edge.1
      · rw [if_pos hi, List.map_append, List.map_singleton, ← List.concat_eq_append]
        refine (h.nodup edge.1).concat fun hmem => ?_
        obtain ⟨c, hc, he⟩ := List.mem_map.1 hmem
        exact hnew c hc he
      · rw [if_neg hi]
        exact h.nodup i

theorem ListsFollowers.foldl {done : List (ι × β)} {outgoing : Assoc ι (List β)}
    (h : ListsFollowers id done outgoing) (edges : List (ι × β))
    (hid : ∀ e ∈ done ++ edges, ∀ f ∈ done ++ edges, id e.2 = id f.2 → e.2 = f.2) :
    ListsFollowers id (done ++ edges) (edges.foldl (addFollower id) outgoing) := by
  induction edges generalizing done outgoing with
  | nil => rwa [List.append_nil]
  | cons edge edges ih =>
    rw [List.append_cons] at hid ⊢
    refine ih (h.add edge fun e he hsame => ?_) hid
    exact hid e (by simp [he]) edge (by simp) hsame

omit [DecidableEq ι] in
theorem mem_edges_iff {nodes : List β} {i : ι} {b : β} :
    (i, b) ∈ nodes.flatMap (fun c => (dependencies c).map fun j => (j, c)) ↔
      b ∈ nodes ∧ i ∈ dependencies b := by
  rw [List.mem_flatMap]
  constructor
  · rintro ⟨c, hc, hmem⟩
    obtain ⟨j, hj, he⟩ := List.mem_map.1 hmem
    obtain ⟨rfl, rfl⟩ := Prod.mk.inj he
    exact ⟨hc, hj⟩
  · rintro ⟨hb, hi⟩
    exact ⟨b, hb, List.mem_map_of_mem hi⟩

section

variable {nodes : List β}

theorem listsFollowers_outgoingOf (dependencies : β → List ι) (hr : Ranked id le nodes) :
    ListsFollowers id (nodes.flatMap fun b => (dependencies b).map fun i => (i, b))
      (outgoingOf id dependencies nodes) := by
  have hnode : ∀ e ∈ nodes.flatMap (fun b => (dependencies b).map fun i => (i, b)), e.2 ∈ nodes :=
    fun e he => (mem_edges_iff.1 he).1
  have hempty : ListsFollowers id [] ([] : Assoc ι (List β)) := by
    refine ⟨fun i b => ?_, fun i => .nil⟩
    exact ⟨fun hb => absurd hb List.not_mem_nil, fun hb => absurd hb List.not_mem_nil⟩
  exact hempty.foldl _ fun e he f hf hsame => hr.eq (hnode e he) (hnode f hf) hsame

/-! ## What a placing keeps -/

/-- The placing once the nodes of the given numbers have been placed. -/
structure Queued (id : β → ι) (dependencies : β → List ι) (le : β → β → Bool) (nodes : List β)
    (placed : List ι) (p : Placing ι β) : Prop where
  incoming : ∀ b ∈ nodes, id b ∉ placed →
    p.incoming.get (id b) [] = (dependencies b).filter (· ∉ placed)
  ready : ∀ b, b ∈ p.ready ↔ b ∈ nodes ∧ id b ∉ placed ∧ ∀ j ∈ dependencies b, j ∈ placed
  nodup : (p.ready.map id).Nodup
  sorted : p.ready.Pairwise (le · ·)
  /-- What has been placed does not wait for anything. -/
  settled : ∀ b ∈ nodes, id b ∈ placed → ∀ j ∈ dependencies b, j ∈ placed

theorem queued_start (dependencies : β → List ι) (hr : Ranked id le nodes) :
    Queued id dependencies le nodes [] (Placing.start id dependencies le nodes) := by
  constructor
  case incoming =>
    intro b hb _
    have hkeys : ((nodes.map fun b => (id b, dependencies b)).map Prod.fst).Nodup := by
      rw [List.map_map]
      exact hr.nodup
    have hlookup := Assoc.lookup_eq_some_of_mem hkeys (List.mem_map.2 ⟨b, hb, rfl⟩)
    show ((nodes.map fun b => (id b, dependencies b)).lookup (id b)).getD [] = _
    rw [hlookup, Option.getD_some]
    exact (List.filter_eq_self.2 fun i _ => by simp).symm
  case ready =>
    intro b
    show b ∈ sortBy le _ ↔ _
    rw [mem_sortBy, List.mem_filter, List.isEmpty_iff]
    simp [List.eq_nil_iff_forall_not_mem]
  case nodup =>
    refine ((sortBy_perm le _).map id).nodup_iff.2 (hr.nodup.sublist ?_)
    exact List.filter_sublist.map id
  case sorted => exact pairwise_sortBy hr.total hr.trans _
  case settled => exact fun b _ hb => absurd hb List.not_mem_nil

/-- The placing when a node has been placed last, and `done` of those that follow it have been
released. -/
structure Releasing (id : β → ι) (dependencies : β → List ι) (le : β → β → Bool) (nodes : List β)
    (placed : List ι) (i : ι) (done : List β) (p : Placing ι β) : Prop where
  incoming : ∀ b ∈ nodes, id b ∉ i :: placed → p.incoming.get (id b) [] =
    (dependencies b).filter fun j => j ∉ placed ∧ ¬ (j = i ∧ id b ∈ done.map id)
  ready : ∀ b, b ∈ p.ready ↔ b ∈ nodes ∧ id b ∉ i :: placed ∧
    ∀ j ∈ dependencies b, j ∈ placed ∨ j = i ∧ id b ∈ done.map id
  nodup : (p.ready.map id).Nodup
  sorted : p.ready.Pairwise (le · ·)

/-- Taking the least node from the queue. -/
theorem Queued.releasing {placed : List ι} {p : Placing ι β} {b : β} {rest : List β}
    (h : Queued id dependencies le nodes placed p) (hready : p.ready = b :: rest)
    (order : List β) :
    Releasing id dependencies le nodes placed (id b) [] { p with ready := rest, order } := by
  have hnodup := h.nodup
  rw [hready, List.map_cons, List.nodup_cons] at hnodup
  have hsorted := h.sorted
  rw [hready, List.pairwise_cons] at hsorted
  constructor
  case incoming =>
    intro c hc hout
    rw [List.mem_cons, not_or] at hout
    show p.incoming.get (id c) [] = _
    rw [h.incoming c hc hout.2]
    exact List.filter_congr fun j _ => by simp
  case ready =>
    intro c
    show c ∈ rest ↔ _
    have hqueue := h.ready c
    rw [hready, List.mem_cons] at hqueue
    simp only [List.mem_cons, not_or, List.map_nil, List.not_mem_nil, and_false, or_false]
    constructor
    · intro hc
      obtain ⟨hmem, hout, hdeps⟩ := hqueue.1 (Or.inr hc)
      exact ⟨hmem, ⟨fun he => hnodup.1 (he ▸ List.mem_map_of_mem hc), hout⟩, hdeps⟩
    · rintro ⟨hmem, ⟨hne, hout⟩, hdeps⟩
      refine (hqueue.2 ⟨hmem, hout, hdeps⟩).resolve_left ?_
      rintro rfl
      exact hne rfl
  case nodup => exact hnodup.2
  case sorted => exact hsorted.2

section

variable {placed : List ι} {i : ι} {done : List β} {p : Placing ι β}

omit [DecidableEq ι] in
theorem mem_queue_iff {free : Bool} {queue : List β} {b c : β} :
    b ∈ (if free then insertSorted le c queue else queue) ↔ (free = true ∧ b = c) ∨ b ∈ queue := by
  cases free with
  | true => simp [(insertSorted_perm le c queue).mem_iff]
  | false => simp

/-- One that waits for the node just placed is not in the queue. -/
theorem Releasing.not_queued (hr : Ranked id le nodes)
    (h : Releasing id dependencies le nodes placed i done p) {c : β} (hc : c ∈ nodes)
    (hdep : i ∈ dependencies c) (hi : i ∉ placed) (hdone : id c ∉ done.map id) :
    id c ∉ p.ready.map id := by
  intro hx
  obtain ⟨b, hb, he⟩ := List.mem_map.1 hx
  obtain ⟨hbn, -, hdeps⟩ := (h.ready b).1 hb
  rw [hr.eq hbn hc he] at hdeps
  exact (hdeps i hdep).elim hi fun hx => hdone hx.2

/-- Releasing one that follows the node and has not been released. -/
theorem Releasing.release (hr : Ranked id le nodes)
    (h : Releasing id dependencies le nodes placed i done p) {c : β} (hc : c ∈ nodes)
    (hdep : i ∈ dependencies c) (hi : i ∉ placed) (hout : id c ∉ i :: placed)
    (hdone : id c ∉ done.map id) :
    Releasing id dependencies le nodes placed i (done ++ [c]) (Placing.release id le i p c) := by
  have hleft : (p.incoming.get (id c) []).filter (· ≠ i) =
      (dependencies c).filter fun j => j ∉ placed ∧ j ≠ i := by
    rw [h.incoming c hc hout, List.filter_filter]
    refine List.filter_congr fun j _ => ?_
    rw [Bool.eq_iff_iff]
    simp [hdone, and_comm]
  have hempty : ((dependencies c).filter fun j => j ∉ placed ∧ j ≠ i).isEmpty = true ↔
      ∀ j ∈ dependencies c, j ∈ placed ∨ j = i := by
    rw [List.isEmpty_iff, List.filter_eq_nil_iff]
    refine forall₂_congr fun j _ => ?_
    rw [decide_eq_true_eq]
    tauto
  have hmem : ∀ b, id b ∈ (done ++ [c]).map id ↔ id b ∈ done.map id ∨ id b = id c := fun b => by
    rw [List.map_append, List.mem_append, List.map_singleton, List.mem_singleton]
  unfold Placing.release
  rw [hleft]
  constructor
  case incoming =>
    intro b hb hbout
    show (p.incoming.put (id c) _).get (id b) [] = _
    rw [Assoc.get_put]
    by_cases hid : id b = id c
    · rw [if_pos hid, hr.eq hb hc hid]
      refine List.filter_congr fun j _ => ?_
      simp
    · rw [if_neg hid, h.incoming b hb hbout]
      simp only [hmem, hid, or_false]
  case ready =>
    intro b
    show b ∈ (if _ then insertSorted le c p.ready else p.ready) ↔ _
    rw [mem_queue_iff, hempty, h.ready, hmem]
    by_cases hbc : b = c
    · subst hbc
      constructor
      · rintro (⟨hfree, -⟩ | ⟨-, -, hdeps⟩)
        · exact ⟨hc, hout, fun j hj => (hfree j hj).imp_right fun he => ⟨he, Or.inr rfl⟩⟩
        · exact ⟨hc, hout, fun j hj => (hdeps j hj).imp_right fun hx => ⟨hx.1, Or.inr rfl⟩⟩
      · rintro ⟨-, -, hdeps⟩
        exact Or.inl ⟨fun j hj => (hdeps j hj).imp_right And.left, rfl⟩
    · rw [or_iff_right fun hx => hbc hx.2]
      refine and_congr_right fun hb => ?_
      rw [or_iff_left fun hid => hbc (hr.eq hb hc hid)]
  case nodup =>
    show ((if _ then insertSorted le c p.ready else p.ready).map id).Nodup
    split
    · rw [((insertSorted_perm le c p.ready).map id).nodup_iff, List.map_cons, List.nodup_cons]
      exact ⟨h.not_queued hr hc hdep hi hdone, h.nodup⟩
    · exact h.nodup
  case sorted =>
    show (if _ then insertSorted le c p.ready else p.ready).Pairwise _
    split
    · exact pairwise_insertSorted hr.total hr.trans c h.sorted
    · exact h.sorted

/-- Releasing followers one after another. -/
theorem Releasing.foldl (hr : Ranked id le nodes) (hi : i ∉ placed) (followers : List β)
    (h : Releasing id dependencies le nodes placed i done p)
    (hnodup : ((done ++ followers).map id).Nodup)
    (hfollowers : ∀ c ∈ followers, c ∈ nodes ∧ i ∈ dependencies c ∧ id c ∉ i :: placed) :
    Releasing id dependencies le nodes placed i (done ++ followers)
      (followers.foldl (Placing.release id le i) p) := by
  induction followers generalizing done p with
  | nil => rwa [List.append_nil]
  | cons c followers ih =>
    obtain ⟨hc, hdep, hout⟩ := hfollowers c List.mem_cons_self
    have hdone : id c ∉ done.map id := fun hmem => by
      rw [List.map_append, List.map_cons] at hnodup
      exact List.disjoint_of_nodup_append hnodup hmem List.mem_cons_self
    rw [List.append_cons] at hnodup ⊢
    exact ih (h.release hr hc hdep hi hout hdone) hnodup
      fun d hd => hfollowers d (List.mem_cons_of_mem c hd)

/-- All followers have been released. -/
theorem Releasing.queued (h : Releasing id dependencies le nodes placed i done p)
    (hdone : ∀ b ∈ nodes, i ∈ dependencies b → id b ∈ done.map id)
    (hsettled : ∀ b ∈ nodes, id b ∈ i :: placed → ∀ j ∈ dependencies b, j ∈ i :: placed) :
    Queued id dependencies le nodes (i :: placed) p := by
  have hmem : ∀ b ∈ nodes, ∀ j ∈ dependencies b,
      (j ∈ placed ∨ j = i ∧ id b ∈ done.map id) ↔ j ∈ i :: placed := by
    intro b hb j hj
    rw [List.mem_cons, or_comm]
    refine or_congr_left ⟨And.left, ?_⟩
    rintro rfl
    exact ⟨rfl, hdone b hb hj⟩
  refine ⟨fun b hb hout => ?_, fun b => ?_, h.nodup, h.sorted, hsettled⟩
  · rw [h.incoming b hb hout]
    refine List.filter_congr fun j hj => ?_
    rw [Bool.eq_iff_iff, decide_eq_true_eq, decide_eq_true_eq, ← hmem b hb j hj, not_or]
  · rw [h.ready]
    exact and_congr_right fun hb => and_congr_right fun _ => forall₂_congr (hmem b hb)

end

/-! ## The placing as a whole -/

theorem Placing.order_foldl_release (i : ι) (followers : List β) (p : Placing ι β) :
    (followers.foldl (release id le i) p).order = p.order := by
  induction followers generalizing p with
  | nil => rfl
  | cons c followers ih => exact ih (release id le i p c)

/-- The first of the queue is the least of the nodes that are ready. -/
theorem Queued.least?_eq {placed : List ι} {p : Placing ι β} {b : β} {rest : List β}
    (hr : Ranked id le nodes) (h : Queued id dependencies le nodes placed p)
    (hready : p.ready = b :: rest) {remaining : List β}
    (hremaining : ∀ c, c ∈ remaining ↔ c ∈ nodes ∧ id c ∉ placed) :
    least? le (remaining.filter fun c => (dependencies c).all placed.contains) = some b := by
  have hqueue : ∀ c, c ∈ remaining.filter (fun c => (dependencies c).all placed.contains) ↔
      c ∈ b :: rest := fun c => by
    rw [← hready, h.ready, List.mem_filter, hremaining, and_assoc]
    simp
  have hsorted := h.sorted
  rw [hready, List.pairwise_cons] at hsorted
  cases hleast : least? le (remaining.filter fun c => (dependencies c).all placed.contains) with
  | none =>
    have hb := (hqueue b).2 List.mem_cons_self
    rw [least?_eq_none.1 hleast] at hb
    exact absurd hb List.not_mem_nil
  | some c =>
    have hc := (hqueue c).1 (mem_of_least? hleast)
    have hnode : ∀ d ∈ b :: rest, d ∈ nodes := fun d hd => ((h.ready d).1 (hready ▸ hd)).1
    have hcb := le_of_least? hr.total hr.trans hleast b ((hqueue b).2 List.mem_cons_self)
    have hbc : le b c = true := by
      rcases List.mem_cons.1 hc with rfl | hc
      · exact hcb
      · exact hsorted.1 c hc
    rw [hr.eq (hnode c hc) (hnode b List.mem_cons_self) (hr.antisymm c b hcb hbc)]

/-- One node is placed and its followers are released. -/
theorem Queued.place {placed : List ι} {p : Placing ι β} {b : β} {rest : List β}
    (hr : Ranked id le nodes) (h : Queued id dependencies le nodes placed p)
    (hready : p.ready = b :: rest) (order : List β) :
    Queued id dependencies le nodes (id b :: placed)
      (((outgoingOf id dependencies nodes).get (id b) []).foldl (Placing.release id le (id b))
        { p with ready := rest, order }) := by
  have hlists := listsFollowers_outgoingOf dependencies hr
  have hfollowers : ∀ c, c ∈ (outgoingOf id dependencies nodes).get (id b) [] ↔
      c ∈ nodes ∧ id b ∈ dependencies c := fun c => (hlists.mem (id b) c).trans mem_edges_iff
  obtain ⟨hb, hout, hdeps⟩ := (h.ready b).1 (hready ▸ List.mem_cons_self)
  have hfold := (h.releasing hready order).foldl hr hout
    ((outgoingOf id dependencies nodes).get (id b) []) (hlists.nodup (id b)) fun c hc => by
      obtain ⟨hcn, hdep⟩ := (hfollowers c).1 hc
      refine ⟨hcn, hdep, fun hmem => ?_⟩
      -- a follower cannot have been placed, as it waits for this node
      rcases List.mem_cons.1 hmem with he | hplaced
      · rw [hr.eq hcn hb he] at hdep
        exact hout (hdeps _ hdep)
      · exact hout (h.settled c hcn hplaced _ hdep)
  refine hfold.queued (fun c hc hdep => List.mem_map_of_mem ((hfollowers c).2 ⟨hc, hdep⟩)) ?_
  intro c hc hmem j hj
  rcases List.mem_cons.1 hmem with he | hplaced
  · exact List.mem_cons_of_mem _ (hdeps j (hr.eq hc hb he ▸ hj))
  · exact List.mem_cons_of_mem _ (h.settled c hc hplaced j hj)

/-- As many rounds as there are nodes left empty the queue, and place what `placeReady` places. -/
theorem Queued.run (hr : Ranked id le nodes) (rounds : Nat) {placed : List ι} {p : Placing ι β}
    (h : Queued id dependencies le nodes placed p) {remaining : List β}
    (hremaining : ∀ c, c ∈ remaining ↔ c ∈ nodes ∧ id c ∉ placed)
    (hrounds : remaining.length ≤ rounds) :
    (p.run id le (outgoingOf id dependencies nodes) rounds).ready = [] ∧
      (p.run id le (outgoingOf id dependencies nodes) rounds).order =
        p.order ++ placeReady id dependencies le rounds placed remaining := by
  have hqueue : ∀ b ∈ p.ready, b ∈ remaining := fun b hb =>
    (hremaining b).2 ⟨((h.ready b).1 hb).1, ((h.ready b).1 hb).2.1⟩
  induction rounds generalizing placed p remaining with
  | zero =>
    rw [List.length_eq_zero_iff.1 (Nat.le_zero.1 hrounds)] at hqueue
    exact ⟨List.eq_nil_iff_forall_not_mem.2 fun b hb => List.not_mem_nil (hqueue b hb),
      (List.append_nil _).symm⟩
  | succ rounds ih =>
    rw [Placing.run, placeReady]
    cases hready : p.ready with
    | nil =>
      have hnone : remaining.filter (fun c => (dependencies c).all placed.contains) = [] := by
        refine List.filter_eq_nil_iff.2 fun c hc hall => ?_
        have hmem : c ∈ p.ready := (h.ready c).2
          ⟨((hremaining c).1 hc).1, ((hremaining c).1 hc).2, by simpa using hall⟩
        rw [hready] at hmem
        exact List.not_mem_nil hmem
      rw [hnone]
      exact ⟨hready, (List.append_nil _).symm⟩
    | cons b rest =>
      have hb := hqueue b (hready ▸ List.mem_cons_self)
      have hmore := h.place hr hready (p.order ++ [b])
      have hfewer : ∀ c, c ∈ remaining.filter (fun c => id c ≠ id b) ↔
          c ∈ nodes ∧ id c ∉ id b :: placed := fun c => by
        rw [List.mem_filter, hremaining, decide_eq_true_eq, List.mem_cons, not_or]
        tauto
      have hlen : (remaining.filter fun c => id c ≠ id b).length ≤ rounds := by
        have hlt : (remaining.filter fun c => id c ≠ id b).length < remaining.length :=
          List.length_filter_lt_length_iff_exists.2 ⟨b, hb, by simp⟩
        omega
      obtain ⟨hempty, horder⟩ := ih hmore hfewer hlen fun c hc =>
        (hfewer c).2 ⟨((hmore.ready c).1 hc).1, ((hmore.ready c).1 hc).2.1⟩
      rw [h.least?_eq hr hready hremaining]
      refine ⟨hempty, horder.trans ?_⟩
      rw [Placing.order_foldl_release, List.append_assoc]
      rfl

/-- As many rounds as there are nodes are enough: no node that is ready is left. -/
theorem ready_placing (dependencies : β → List ι) (hr : Ranked id le nodes) :
    (placing id dependencies le nodes nodes.length).ready = [] :=
  ((queued_start dependencies hr).run hr _ (by simp) (Nat.le_refl _)).1

theorem topologicalOrder_eq_placeReady (dependencies : β → List ι) (hr : Ranked id le nodes) :
    topologicalOrder id dependencies le nodes =
      placeReady id dependencies le nodes.length [] nodes :=
  ((queued_start dependencies hr).run hr _ (by simp) (Nat.le_refl _)).2

/-- A node that needs itself, one that needs that node, and one that needs something unknown are
left out. -/
example : (topologicalOrder Prod.fst Prod.snd (fun a b => b.1 ≤ a.1)
    [(1, []), (2, [1]), (3, []), (4, [4]), (5, [4]), (6, [9])]).map Prod.fst = [3, 1, 2] := by
  decide

end

end ComponentLint
