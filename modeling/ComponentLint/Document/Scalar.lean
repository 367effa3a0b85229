import ComponentLint.Data.Basic
import ComponentLint.Document.Validated
import ComponentLint.Number.IntegerText
/-
  Texts, integers and booleans of a document. Integers and booleans may also be written as
  texts, whole fractional numbers count as integers, and a boolean may be 0 or 1.
-/

namespace ComponentLint.Document

/-- A text of characters; one with surrogates has characters for them. -/
def readText : Data → Except FaultKind String
  | .text value => .ok value
  | .unpaired value => .ok value.shown
  | _ => .error .notText

/-- A text as it is. -/
def readSource : Data → Except FaultKind SourceText
  | .text value => .ok (.text value)
  | .unpaired value => .ok (.unpaired value)
  | _ => .error .notText

/-- One more than the largest integer of 64 bits. -/
def wordLimit : Int :=
  Int.pow 2 63

def readInteger : Data → Except FaultKind Int
  | .int value => .ok value
  | .bool value => .ok (if value then 1 else 0)
  | .real .nan => .error .notFinite
  | .real (.infinite _) => .error .notFinite
  | .real value =>
    match value.toInt? with
    | none => .error .fractionalInteger
    | some whole =>
      if -wordLimit < whole && whole < wordLimit then .ok whole else .error .integerTooLarge
  | .text value =>
    match IntegerText.read value with
    | .ok number => .ok number
    | .error .malformed => .error .malformedInteger
    | .error .tooLong => .error .integerTooLarge
  | .unpaired _ => .error .malformedInteger
  | _ => .error .notAnInteger

def trueWords : List String := ["1", "on", "t", "true", "y", "yes"]

def falseWords : List String := ["0", "off", "f", "false", "n", "no"]

/-- An integer beyond 64 bits is not even a malformed boolean. -/
def booleanOfInteger (value : Int) : Except FaultKind Bool :=
  if value = 1 then .ok true
  else if value = 0 then .ok false
  else if -wordLimit ≤ value && value < wordLimit then .error .malformedBoolean
  else .error .notABoolean

def readBoolean : Data → Except FaultKind Bool
  | .bool value => .ok value
  | .int value => booleanOfInteger value
  | .text value =>
    if trueWords.contains value.toLower then .ok true
    else if falseWords.contains value.toLower then .ok false
    else .error .malformedBoolean
  | .unpaired _ => .error .malformedBoolean
  | .real value =>
    match readInteger (.real value) with
    | .ok whole => booleanOfInteger whole
    | .error _ => .error .notABoolean
  | _ => .error .notABoolean

/-- A text out of a fixed set. -/
def readMember {α : Type} (ofId? : String → Option α) : Data → Except FaultKind α
  | .text value =>
    match ofId? value with
    | some a => .ok a
    | none => .error .notAMember
  | _ => .error .notAMember

end ComponentLint.Document
