import ComponentLint.Section.Basic
import ComponentLint.Text.LetterCase
/-
  What names say of sections. Of hook calls, the well-known hooks have a section each, and every
  other name of the form `useSomething` is a custom hook. Of camel-case names, the first word
  suggests a section, and the names of a section should begin with certain words.
-/

namespace ComponentLint

namespace Hook

/-- The section of each well-known hook. -/
def known : List (String × Section) :=
  [("useState", .state), ("useReducer", .state), ("useRef", .refs), ("useMemo", .memos),
    ("useCallback", .callbacks), ("useEffect", .effects), ("useLayoutEffect", .effects),
    ("useInsertionEffect", .effects), ("useDispatch", .redux), ("useSelector", .redux),
    ("useStore", .redux), ("useAppDispatch", .redux), ("useAppSelector", .redux)]

/-- The part of a dotted name after its last dot. -/
def baseName (callee : String) : String :=
  String.ofList (callee.toList.reverse.takeWhile (· ≠ '.')).reverse

/-- Names that begin with `use` and go on with a capital, a digit or an underscore, and `use`
itself, which one line feed may follow. -/
def isCustom (name : String) : Bool :=
  match name.toList with
  | ['u', 's', 'e'] => true
  | ['u', 's', 'e', '\n'] => true
  | 'u' :: 's' :: 'e' :: c :: _ => c.isUpper || c.isDigit || c == '_'
  | _ => false

/-- The section of a hook call, if the callee names a hook. -/
def section? (callee : String) : Option Section :=
  let name := baseName callee
  match known.lookup name with
  | some place => some place
  | none => if isCustom name then some .hooks else none

end Hook

namespace Naming

/-- The name begins with the word at a camel-case boundary: no lower-case letter follows. -/
def startsWithWord (name word : String) : Bool :=
  match word.toList.isPrefixOf? name.toList with
  | none => false
  | some rest => !rest.head?.any Text.isLower

/-- The section that each first word suggests, tried in this order. -/
def suggestions : List (String × Section) :=
  [("get", .functions), ("render", .functions), ("handle", .callbacks)]

def suggested? (name : String) : Option Section :=
  (suggestions.find? fun entry => startsWithWord name entry.1).map Prod.snd

/-- The first words that the names of a section should have. -/
def wanted? : Section → Option (List String)
  | .functions => some ["get", "render"]
  | .callbacks => some ["handle"]
  | .derivedValues => some ["is", "has"]
  | _ => none

/-- First words that are kept for props. -/
def reserved : List String := ["on"]

end Naming

end ComponentLint
