/-
  Texts of code points. A text that is read is not always one of characters: a surrogate can stand
  in it without its partner. Such a text has no bytes in UTF-8.
-/

namespace ComponentLint

inductive CodePoint where
  | char (value : Char)
  /-- A surrogate, by its distance from the first one. -/
  | surrogate (offset : Fin 0x800)
deriving Repr, DecidableEq

namespace CodePoint

def isSurrogate : CodePoint → Bool
  | char _ => false
  | surrogate _ => true

/-- The two are the surrogates of one character. -/
def isPair : CodePoint → CodePoint → Bool
  | surrogate high, surrogate low => high.val < 0x400 && 0x400 ≤ low.val
  | _, _ => false

def code : CodePoint → Nat
  | char value => value.toNat
  | surrogate offset => 0xD800 + offset.val

/-- The character in the point's place where only characters can stand. -/
def shown : CodePoint → Char
  | char value => value
  | surrogate _ => Char.ofNat 0xFFFD

/-- Two neighbours are the surrogates of one character. -/
def hasPair : List CodePoint → Bool
  | first :: second :: rest => first.isPair second || hasPair (second :: rest)
  | _ => false

end CodePoint

/-- A text with surrogates, none of which has its partner beside it. -/
structure UnpairedText where
  points : List CodePoint
  surrogates : points.any (·.isSurrogate) = true
  unpaired : CodePoint.hasPair points = false
deriving Repr, DecidableEq

/-- The text with a character for every surrogate. -/
def UnpairedText.shown (text : UnpairedText) : String :=
  String.ofList (text.points.map CodePoint.shown)

/-- The text of a file. -/
inductive SourceText where
  | text (value : String)
  | unpaired (value : UnpairedText)
deriving Repr, DecidableEq

instance : Coe String SourceText := ⟨.text⟩

end ComponentLint
