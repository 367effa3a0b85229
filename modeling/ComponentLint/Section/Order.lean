import ComponentLint.Severity
import ComponentLint.Section.Marker
/-
  The order of the sections: every section once. A configured list comes first, and the
  sections it leaves out follow in canonical order.
-/

namespace ComponentLint

/-- The placement that a configured name means: its own name, a title, or any marker text. -/
def Placement.parse (value : String) : Except ConfigError Placement :=
  let name := Text.trim value
  match Placement.named? name with
  | some placement => .ok placement
  | none => match Marker.parse? name with
    | some place => .ok (.inSection place)
    | none => .error (.unknownSection value)

/-- A sequence of all sections. -/
structure SectionOrder where
  sections : List Section
  perm_all : sections.Perm Section.all

namespace SectionOrder

def canonical : SectionOrder := ⟨Section.all, .refl _⟩

instance : Inhabited SectionOrder := ⟨canonical⟩

def position (order : SectionOrder) (place : Section) : Nat :=
  order.sections.idxOf place

/-- The listed sections, then the others in canonical order. -/
def complete (listed : List Section) : List Section :=
  listed ++ Section.all.filter (· ∉ listed)

theorem perm_complete {listed : List Section} (h : listed.Nodup) :
    (complete listed).Perm Section.all := by
  rw [List.perm_iff_count]
  intro s
  have all_once : Section.all.count s = 1 := by cases s <;> decide
  rw [complete, List.count_append, all_once]
  by_cases hs : s ∈ listed
  · have listed_once : listed.count s = 1 := by
      have := List.nodup_iff_count.1 h s
      have := List.count_pos_iff.2 hs
      omega
    have rest_none : (Section.all.filter (· ∉ listed)).count s = 0 := by
      simp [List.count_eq_zero, hs]
    omega
  · have listed_none : listed.count s = 0 := List.count_eq_zero.2 hs
    have rest_once : (Section.all.filter (· ∉ listed)).count s = 1 := by
      rw [List.count_filter (by simpa using hs), all_once]
    omega

/-- An entry of a configured order: a name that is yet to be read, or a placement as such. -/
inductive Entry where
  | name (value : String)
  | placement (value : Placement)
deriving Repr, DecidableEq

/-- The placement that an entry means. -/
def Entry.resolve : Entry → Except ConfigError Placement
  | name value => Placement.parse value
  | placement value => .ok value

/-- Goes on with the sections listed so far. -/
def extend (listed : List Section) (nodup : listed.Nodup) :
    List Entry → Except ConfigError SectionOrder
  | [] => .ok ⟨complete listed, perm_complete nodup⟩
  | entry :: entries =>
    match entry.resolve with
    | .error e => .error e
    | .ok .unclassified => .error .unclassifiedInOrder
    | .ok (.inSection place) =>
      if h : place ∈ listed then .error (.sectionListedTwice place)
      else
        extend (listed ++ [place])
          (List.nodup_append.2 ⟨nodup, by simp, by
            intro a ha b hb
            rw [List.mem_singleton] at hb
            intro e
            exact h (hb ▸ e ▸ ha)⟩) entries

/-- The order that a list asks for; an empty list asks for the canonical order. -/
def ofEntries (entries : List Entry) : Except ConfigError SectionOrder :=
  extend [] List.nodup_nil entries

def ofNames (names : List String) : Except ConfigError SectionOrder :=
  ofEntries (names.map .name)

end SectionOrder

end ComponentLint
