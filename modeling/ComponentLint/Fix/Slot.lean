import ComponentLint.SourceUnit
/-
  Slots: the bytes that statements take up in their source, leading comments included, and the
  gaps between them. Statements change places by filling the slots with other texts while the
  gaps stay. A statement that is moved has its lines and columns found anew.
-/

namespace ComponentLint

abbrev Bytes := List UInt8

namespace Bytes

def ofText (text : String) : Bytes :=
  text.toUTF8.data.toList

/-- The bytes of a text; one with surrogates has none. -/
def ofSource? : SourceText → Option Bytes
  | .text value => some (ofText value)
  | .unpaired _ => none

/-- The text that bytes encode, if they are UTF-8. -/
def toText? (bytes : Bytes) : Option String :=
  String.fromUTF8? ⟨bytes.toArray⟩

/-- The bytes from `start` up to `stop`. -/
def slice (bytes : Bytes) (start stop : Int) : Bytes :=
  (bytes.drop start.toNat).take (stop - start).toNat

/-- The offsets of the line feeds, the first byte being at `offset`. -/
def lineFeeds (offset : Int) : Bytes → List Int
  | [] => []
  | byte :: rest =>
    if byte = 0x0A then offset :: lineFeeds (offset + 1) rest else lineFeeds (offset + 1) rest

end Bytes

/-- The slots of the statements follow each other between two offsets. -/
def slotsTile (start stop : Int) : List Statement → Bool
  | [] => true
  | s :: rest =>
    start ≤ s.slotStart && s.span.stop ≤ stop && s.slotStart ≤ s.span.stop &&
      slotsTile s.span.stop stop rest

/-- The text of a statement's slot. -/
def Statement.slotText (source : Bytes) (s : Statement) : Bytes :=
  source.slice s.slotStart s.span.stop

/-- The gaps before, between and after the slots of the statements. -/
def gaps (source : Bytes) (start stop : Int) : List Statement → List Bytes
  | [] => [source.slice start stop]
  | s :: rest => source.slice start s.slotStart :: gaps source s.span.stop stop rest

/-- Gaps and texts in turn. -/
def interleave : List Bytes → List Bytes → Bytes
  | gap :: gaps, text :: texts => gap ++ text ++ interleave gaps texts
  | gaps, _ => gaps.flatten

/-- Where each text begins when gaps and texts are put in turn after so many bytes. -/
def textOffsets (length : Int) : List Bytes → List Bytes → List Int
  | gap :: gaps, text :: texts =>
    (length + gap.length) :: textOffsets (length + gap.length + text.length) gaps texts
  | _, _ => []

/-! ## Lines and columns -/

/-- The line, counted from one, and the column, in bytes from zero, of an offset, by the
offsets of the line feeds in ascending order. -/
def linePosition (lineFeeds : List Int) (offset : Int) : Int × Int :=
  let before := lineFeeds.filter (· < offset)
  let lineStart := match before.getLast? with
    | none => 0
    | some last => last + 1
  (before.length + 1, offset - lineStart)

/-- The span at other offsets; its lines are found anew if they were known. -/
def Span.moved (span : Span) (lineFeeds : List Int) (delta : Int) : Span :=
  let start := span.start + delta
  let stop := span.stop + delta
  if span.line = 0 then { span with start, stop }
  else
    let (line, column) := linePosition lineFeeds start
    { start, stop, line, column, endLine := (linePosition lineFeeds stop).1 }

/-- The statement with its slot at another offset. Its body is left as it is. -/
def Statement.relocated (lineFeeds : List Int) (s : Statement) (slotOffset : Int) : Statement :=
  let delta := slotOffset - s.slotStart
  { s with
    span := s.span.moved lineFeeds delta
    leadingStart := s.leadingStart.map (· + delta) }

end ComponentLint
