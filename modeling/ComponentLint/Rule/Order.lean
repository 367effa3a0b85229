import ComponentLint.Arrangement
/-
  The rules on order: sections in their order, declarations of a section in alphabetical order
  with what they read before them, and the props type last among the types.
-/

namespace ComponentLint.Rule

/-- The declarations that stand behind a later section of their container, with the latest
section before them. -/
def outOfSection (order : SectionOrder) (latest : Scope → Option Section) :
    List Classified → List (Classified × Section)
  | [] => []
  | d :: ds =>
    match d.section? with
    | none => outOfSection order latest ds
    | some place =>
      let advanced := fun scope => if scope = d.scope then some place else latest scope
      match latest d.scope with
      | none => outOfSection order advanced ds
      | some last =>
        if order.position place < order.position last then
          (d, last) :: outOfSection order latest ds
        else outOfSection order advanced ds

/-- Neighbours in a list. -/
def neighbours {α : Type} (as : List α) : List (α × α) :=
  as.zip as.tail

/-- A declaration to be moved before its neighbour, and why. -/
structure Misplaced where
  place : Section
  declaration : Classified
  earlier : Classified
  /-- The earlier one reads it; otherwise the alphabet asks for the move. -/
  isRead : Bool

/-- Whether two neighbours are out of order. What is read comes first; a props type and what
reads its neighbour may stand behind it. -/
def misplaced? (graph : SectionGraph) (earlier later : Classified) : Option Misplaced :=
  if graph.dependsOn earlier.index later.index then
    some ⟨graph.place, later, earlier, true⟩
  else if later.isPropsType || earlier.sortKey ≤ later.sortKey ||
      graph.dependsOn later.index earlier.index then none
  else some ⟨graph.place, later, earlier, false⟩

/-- The misplaced declarations of one section in one container; those on a cycle are left
aside. -/
def misplacedIn (graph : SectionGraph) (members : List Classified) : List Misplaced :=
  let checked := members.filter fun d => !graph.cycleMembers.contains d.index
  (neighbours checked).filterMap fun (earlier, later) => misplaced? graph earlier later

/-- The misplaced declarations of one section. -/
def misplacedOf (graph : SectionGraph) (ds : List Classified) : List Misplaced :=
  let members := sectionMembers ds graph.place
  misplacedIn graph (inScope .module members) ++ misplacedIn graph (inScope .component members)

/-- The misplaced declarations of the sections that are to be sorted. -/
def misplaced (options : Options) (graphs : List SectionGraph) (ds : List Classified) :
    List Misplaced :=
  options.order.sections.flatMap fun place =>
    if options.sortable.contains place then misplacedOf (graphAt graphs place) ds else []

/-- The first props type, if another type of its container stands behind it. -/
def propsNotLast? (ds : List Classified) : Option Classified :=
  let types := sectionMembers ds .typesInterfaces
  match types.find? (·.isPropsType) with
  | none => none
  | some props =>
    if (inScope props.scope types).getLast?.any (·.index == props.index) then none else some props

/-- The sections that have to be sorted, because something in them is misplaced. -/
def resorted (options : Options) (misplaced : List Misplaced) (ds : List Classified) :
    List Section :=
  let moved := misplaced.map (·.place)
  options.order.sections.filter fun place =>
    moved.contains place || (place == .typesInterfaces && (propsNotLast? ds).isSome)

end ComponentLint.Rule
