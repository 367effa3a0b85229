import ComponentLint.Options.Table
import Mathlib.Data.List.Basic
import Mathlib.Data.List.Forall2
/-
  The order of the sections that a configuration asks for. Names, titles, marker texts and sections
  can mean the same section, so what counts is what the entries mean (`Entry.Means`). Reading the
  entries one after another goes on as long as each means a section that none before it means
  (`extend_eq_ok_iff`). The sections left out follow in canonical order, so the order is a full one,
  and it is what all options from a settings table have (`section_order_accepts_exactly`).
-/

namespace ComponentLint

namespace SectionOrder

/-- The entry means the section. -/
def Entry.Means (entry : Entry) (place : Section) : Prop :=
  entry.resolve = .ok (.inSection place)

/-- The entries do not mean the same section. -/
def Entry.Apart (a b : Entry) : Prop :=
  ∀ place, a.Means place → ¬ b.Means place

theorem Entry.Means.unique {entry : Entry} {s t : Section} (hs : entry.Means s)
    (ht : entry.Means t) : s = t :=
  Placement.inSection.inj (Except.ok.inj (hs.symm.trans ht))

-- An identifier, a title and a marker text can mean one section.
example : (["types_interfaces", " Types & Interfaces", "/* == TYPES == */"].map fun value =>
    (Entry.resolve (.name value)).toOption) =
      List.replicate 3 (some (.inSection .typesInterfaces)) := by
  decide +kernel

section

variable {listed : List Section} {nodup : listed.Nodup} {entry : Entry} {entries : List Entry}
  {place : Section} {order : SectionOrder}

/-- One step: the next entry has to mean a section, and one that is not listed yet. -/
theorem extend_cons_eq_ok_iff :
    extend listed nodup (entry :: entries) = .ok order ↔
      ∃ place, entry.Means place ∧ ∃ nodup' : (listed ++ [place]).Nodup,
        extend (listed ++ [place]) nodup' entries = .ok order := by
  rw [extend]
  unfold Entry.Means
  constructor
  · intro h
    split at h
    · exact absurd h (by simp)
    · exact absurd h (by simp)
    · next place hplace =>
      split at h
      · exact absurd h (by simp)
      · exact ⟨place, hplace, _, h⟩
  · rintro ⟨place, hplace, nodup', h⟩
    have hnew : place ∉ listed := fun hmem =>
      (List.nodup_append.1 nodup').2.2 place hmem place List.mem_cons_self rfl
    rw [hplace]
    dsimp only
    rw [dif_neg hnew]
    exact h

/-- A run: the entries mean sections, all different and not listed before. -/
theorem extend_eq_ok_iff :
    extend listed nodup entries = .ok order ↔
      ∃ places, List.Forall₂ Entry.Means entries places ∧ (listed ++ places).Nodup ∧
        order.sections = complete (listed ++ places) := by
  induction entries generalizing listed with
  | nil =>
    constructor
    · intro h
      obtain rfl := Except.ok.inj h
      exact ⟨[], .nil, by rwa [List.append_nil], by rw [List.append_nil]⟩
    · rintro ⟨places, hmeans, -, hsections⟩
      cases hmeans
      cases order
      rw [List.append_nil] at hsections
      subst hsections
      rfl
  | cons entry entries ih =>
    rw [extend_cons_eq_ok_iff]
    constructor
    · rintro ⟨place, hplace, nodup', h⟩
      obtain ⟨places, hmeans, hnodup, hsections⟩ := ih.1 h
      rw [List.append_assoc] at hnodup hsections
      exact ⟨place :: places, .cons hplace hmeans, hnodup, hsections⟩
    · rintro ⟨_, hmeans, hnodup, hsections⟩
      cases hmeans with
      | cons hplace hmeans =>
        next place places =>
        rw [← List.singleton_append, ← List.append_assoc] at hnodup hsections
        exact ⟨place, hplace, (List.nodup_append.1 hnodup).1,
          ih.2 ⟨places, hmeans, hnodup, hsections⟩⟩

end

theorem ofEntries_eq_ok_iff {entries : List Entry} {order : SectionOrder} :
    ofEntries entries = .ok order ↔
      ∃ places, List.Forall₂ Entry.Means entries places ∧ places.Nodup ∧
        order.sections = complete places :=
  extend_eq_ok_iff

/-! ## Which lists are accepted -/

theorem exists_forall₂_means_iff {entries : List Entry} :
    (∃ places, List.Forall₂ Entry.Means entries places) ↔
      ∀ entry ∈ entries, ∃ place, entry.Means place := by
  induction entries with
  | nil => exact iff_of_true ⟨[], .nil⟩ (List.forall_mem_nil _)
  | cons entry entries ih =>
    rw [List.forall_mem_cons, ← ih]
    constructor
    · rintro ⟨_, hmeans⟩
      cases hmeans with
      | cons hplace hmeans => exact ⟨⟨_, hplace⟩, _, hmeans⟩
    · rintro ⟨⟨place, hplace⟩, places, hmeans⟩
      exact ⟨place :: places, .cons hplace hmeans⟩

theorem mem_iff_exists_means {entries : List Entry} {places : List Section}
    (h : List.Forall₂ Entry.Means entries places) (place : Section) :
    place ∈ places ↔ ∃ entry ∈ entries, entry.Means place := by
  induction h with
  | nil => simp
  | cons hfirst _ ih =>
    simp only [List.mem_cons, exists_eq_or_imp, ih]
    exact or_congr_left ⟨fun heq => heq ▸ hfirst, fun hplace => hplace.unique hfirst⟩

theorem nodup_iff_pairwise_apart {entries : List Entry} {places : List Section}
    (h : List.Forall₂ Entry.Means entries places) :
    places.Nodup ↔ entries.Pairwise Entry.Apart := by
  induction h with
  | nil => exact iff_of_true List.nodup_nil .nil
  | cons hplace hmeans ih =>
    rw [List.nodup_cons, List.pairwise_cons, ih, mem_iff_exists_means hmeans]
    refine and_congr_left fun _ => ?_
    constructor
    · intro hnew other hother s hs hother'
      exact hnew ⟨other, hother, hs.unique hplace ▸ hother'⟩
    · rintro hapart ⟨other, hother, hother'⟩
      exact hapart other hother _ hplace hother'

/-- A full order that begins with what the entries mean. -/
structure Completes (entries : List Entry) (order : SectionOrder) : Prop where
  perm : order.sections.Perm Section.all
  /-- The sections left out follow in canonical order. -/
  listedFirst : ∃ listed rest, order.sections = listed ++ rest ∧
    List.Forall₂ Entry.Means entries listed ∧ rest.Sublist Section.all
  /-- Asking for this very order gives it again. -/
  stable : ofEntries (order.sections.map fun place => .placement (.inSection place)) = .ok order

theorem ofEntries_sections (order : SectionOrder) :
    ofEntries (order.sections.map fun place => .placement (.inSection place)) = .ok order := by
  have hmeans : List.Forall₂ Entry.Means
      (order.sections.map fun place => .placement (.inSection place)) order.sections := by
    rw [List.forall₂_map_left_iff, List.forall₂_same]
    exact fun place _ => rfl
  have hrest : Section.all.filter (· ∉ order.sections) = [] :=
    List.filter_eq_nil_iff.2 fun place hplace => by simp [order.perm_all.mem_iff.2 hplace]
  refine ofEntries_eq_ok_iff.2 ⟨order.sections, hmeans, ?_, ?_⟩
  · exact order.perm_all.nodup_iff.2 Section.nodup_all
  · rw [complete, hrest, List.append_nil]

theorem completes_of_ofEntries {entries : List Entry} {order : SectionOrder}
    (h : ofEntries entries = .ok order) : Completes entries order := by
  obtain ⟨places, hmeans, hnodup, hsections⟩ := ofEntries_eq_ok_iff.1 h
  refine ⟨?_, ⟨places, _, hsections, hmeans, List.filter_sublist⟩, ofEntries_sections order⟩
  rw [hsections]
  exact perm_complete hnodup

end SectionOrder

/-! ## Options -/

open SectionOrder

theorem exists_of_bind_eq_ok {ε α β : Type} {x : Except ε α} {f : α → Except ε β} {b : β}
    (h : x >>= f = .ok b) : ∃ a, x = .ok a ∧ f a = .ok b := by
  cases x with
  | error e => exact absurd h (by simp [bind, Except.bind])
  | ok a => exact ⟨a, rfl, h⟩

/-- Whatever else the options hold, their order is the one asked for. -/
theorem Options.ofNames_of_ofGiven {given : Given} {options : Options}
    (h : ofGiven given = .ok options) : ofNames given.order = .ok options.order := by
  obtain ⟨order, horder, h⟩ := exists_of_bind_eq_ok h
  dsimp only at h
  split at h
  all_goals
    obtain ⟨threshold, -, h⟩ := exists_of_bind_eq_ok h
    split at h
    all_goals
      obtain ⟨sortable, -, h⟩ := exists_of_bind_eq_ok h
      obtain rfl := Except.ok.inj h
      exact horder

/-- The entries that a settings table has for the order. -/
def Options.orderEntries (table : Table) : List Entry :=
  (given table none).order.map .name

theorem Options.completes_of_ofTable {table : Table} {options : Options}
    (h : ofTable table = .ok options) : Completes (orderEntries table) options.order := by
  obtain ⟨threshold, -, h⟩ := exists_of_bind_eq_ok h
  have hnames := ofNames_of_ofGiven h
  have horder : ofEntries (orderEntries table) = .ok options.order := hnames
  exact completes_of_ofEntries horder

/-- A list is accepted as an order exactly when all its entries mean sections, no two of them the
same one. The order is then a full one: it has all sections, first those that the entries mean, one
for each, and then the others in canonical order; asked for again as it is, it stays. So all options
that come from a table have a full order. -/
theorem section_order_accepts_exactly :
    (∀ entries, (∃ order, ofEntries entries = .ok order) ↔
      (∀ entry ∈ entries, ∃ place, entry.Means place) ∧ entries.Pairwise Entry.Apart) ∧
    (∀ entries order, ofEntries entries = .ok order → Completes entries order) ∧
    ∀ table options, Options.ofTable table = .ok options →
      Completes (Options.orderEntries table) options.order := by
  refine ⟨fun entries => ?_, fun _ _ => completes_of_ofEntries,
    fun _ _ => Options.completes_of_ofTable⟩
  constructor
  · rintro ⟨order, h⟩
    obtain ⟨places, hmeans, hnodup, -⟩ := ofEntries_eq_ok_iff.1 h
    exact ⟨exists_forall₂_means_iff.1 ⟨places, hmeans⟩, (nodup_iff_pairwise_apart hmeans).1 hnodup⟩
  · rintro ⟨hall, hapart⟩
    obtain ⟨places, hmeans⟩ := exists_forall₂_means_iff.2 hall
    have hnodup := (nodup_iff_pairwise_apart hmeans).2 hapart
    exact ⟨⟨complete places, perm_complete hnodup⟩,
      ofEntries_eq_ok_iff.2 ⟨places, hmeans, hnodup, rfl⟩⟩

end ComponentLint
