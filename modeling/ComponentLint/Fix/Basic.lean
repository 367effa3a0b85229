import ComponentLint.Arrangement
import ComponentLint.Fix.Slot
/-
  Putting a unit in order: its statements are rearranged, and its source is spliced anew when the
  slots of the statements tile it and no slot cuts a character apart.
-/

namespace ComponentLint

inductive SpliceFailure where
  | notTiled
  | splitsCharacter
deriving Repr, DecidableEq

namespace Fix

/-- The statements of the module in a new order, the component with a body of its own. -/
def rebuilt (topLevel : List Classified) (body : List Statement) : List Statement :=
  topLevel.map fun d => if d.isComponent then { d.statement with body := some body } else d.statement

/-- The unit with statements and source in a new order, by the bytes of the source. -/
def splice (unit : SourceUnit) (bytes : Bytes) (component : Statement)
    (topLevel body : List Classified) : Except SpliceFailure SourceUnit :=
  let inner := component.bodyStatements
  if !(slotsTile 0 bytes.length unit.statements &&
      slotsTile component.span.start component.span.stop inner) then .error .notTiled
  else
    let bodyGaps := gaps bytes component.slotStart component.span.stop inner
    let bodyTexts := body.map (·.statement.slotText bytes)
    let componentText := interleave bodyGaps bodyTexts
    let moduleGaps := gaps bytes 0 bytes.length unit.statements
    let moduleTexts := topLevel.map fun d =>
      if d.isComponent then componentText else d.statement.slotText bytes
    let spliced := interleave moduleGaps moduleTexts
    match spliced.toText? with
    | none => .error .splitsCharacter
    | some text =>
      let lineFeeds := spliced.lineFeeds 0
      let placed := topLevel.zip (textOffsets 0 moduleGaps moduleTexts)
      let componentStart := ((placed.find? (·.1.isComponent)).map Prod.snd).getD 0
      let newBody := (body.zip (textOffsets componentStart bodyGaps bodyTexts)).map
        fun (d, offset) => d.statement.relocated lineFeeds offset
      let statements := placed.map fun (d, offset) =>
        let moved := d.statement.relocated lineFeeds offset
        if d.isComponent then { moved with body := some newBody } else moved
      .ok { unit with statements, source := some (.text text) }

end Fix

/-- What became of a unit. -/
inductive Fix where
  | unchanged (unit : SourceUnit)
  /-- The unit has no source to put in order. -/
  | reordered (unit : SourceUnit)
  /-- Only the statements were put in order. -/
  | sourceKept (unit : SourceUnit) (failure : SpliceFailure)
  | spliced (unit : SourceUnit)

namespace Fix

def unit : Fix → SourceUnit
  | unchanged unit => unit
  | reordered unit => unit
  | sourceKept unit _ => unit
  | spliced unit => unit

def changed : Fix → Bool
  | unchanged _ => false
  | _ => true

/-- The source in order, if it is known. -/
def source : Fix → Option SourceText
  | unchanged unit => unit.source
  | spliced unit => unit.source
  | _ => none

/-- Puts a unit in the order of an arrangement of its declarations. This fails if there is something
to move and the source has no bytes. -/
def plan? (unit : SourceUnit) (ds arranged : List Classified) : Option Fix :=
  if arranged.map (·.index) = ds.map (·.index) then some (.unchanged unit)
  else
    let topLevel := inScope .module arranged
    let body := inScope .component arranged
    let reordered := { unit with statements := rebuilt topLevel (body.map (·.statement)) }
    match ds.find? (·.isComponent), unit.source with
    | some component, some source =>
      (Bytes.ofSource? source).map fun bytes =>
        match splice unit bytes component.statement topLevel body with
        | .ok unit => .spliced unit
        | .error failure => .sourceKept reordered failure
    | _, _ => some (.reordered reordered)

end Fix

end ComponentLint
