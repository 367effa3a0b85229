import ComponentLint.Proofs.Addresses
import ComponentLint.Proofs.Document.RoundTrip
/-
  Which documents are refused for a span, and for which one. Decoding, the check of the spans and
  the tidying all walk through the bodies, and none of them leaves out an address. So a document
  that can be decoded is read exactly when every span in it is proper, and otherwise the first
  statement in pre-order whose span is not is blamed (`spans_checked_everywhere`).
-/

namespace ComponentLint

open Address

/-- The statement at an address of a unit. -/
def SourceUnit.statementAt? (unit : SourceUnit) : List Nat → Option Statement :=
  at? Statement.bodyStatements unit.statements

/-- The span starts at no negative offset and does not end before it starts. -/
def Span.Proper (span : Span) : Prop :=
  0 ≤ span.start ∧ span.start ≤ span.stop

namespace Document

/-! ## Messages -/

theorem spelled_texts (texts : List String) : (Data.list (texts.map .text)).spelled =
    "[" ++ ", ".intercalate (texts.map Text.quoted) ++ "]" := by
  have hitems : Data.spelledItems (texts.map .text) = texts.map Text.quoted := by
    induction texts with
    | nil => rfl
    | cons text texts ih => rw [List.map_cons, List.map_cons, Data.spelledItems, ih, Data.spelled]
  rw [Data.spelled, hitems]

theorem Error.message_eq (error : Error) (document : String) : error.message document =
    (if document = "" then "" else document ++ ": ") ++ error.text := by
  unfold Error.message
  by_cases h : document = ""
  · rw [if_pos h, if_pos (String.isEmpty_iff.2 h), String.empty_append]
  · rw [if_neg h, if_neg (mt String.isEmpty_iff.1 h)]

theorem Error.text_invalidSpan (names : List String) (kind : StatementKind) (span : Span) :
    (Error.invalidSpan names kind span).text = "statement " ++
      (if names = [] then kind.id else "[" ++ ", ".intercalate (names.map Text.quoted) ++ "]") ++
        " has an invalid span (" ++ toString span.start ++ ", " ++ toString span.stop ++ ")" := by
  rw [← spelled_texts]
  cases names with
  | nil => rfl
  | cons name names =>
    rw [if_neg (List.cons_ne_nil name names)]
    rfl

/-- The error is about the span of the statement, and its message tells which one: it has the
statement's names, empty ones too, or its kind if there are none, and the ends of the span. -/
structure Error.Blames (error : Error) (s : Statement) : Prop where
  cause : error = .invalidSpan s.names s.kind s.span
  message : ∀ document, error.message document =
    (if document = "" then "" else document ++ ": ") ++ ("statement " ++
      (if s.names = [] then s.kind.id
        else "[" ++ ", ".intercalate (s.names.map Text.quoted) ++ "]") ++
      " has an invalid span (" ++ toString s.span.start ++ ", " ++ toString s.span.stop ++ ")")

theorem Error.blames_invalidSpan (s : Statement) :
    (Error.invalidSpan s.names s.kind s.span).Blames s := by
  refine ⟨rfl, fun document => ?_⟩
  rw [Error.message_eq, Error.text_invalidSpan]

/-- The error blames the first statement in pre-order without a proper span. -/
def Error.BlamesFirst (lookup? : List Nat → Option Statement) (error : Error) : Prop :=
  ∃ address s, FirstWithout lookup? (·.span.Proper) address s ∧ error.Blames s

theorem Error.BlamesFirst.unique {lookup? : List Nat → Option Statement} {error other : Error}
    (h : error.BlamesFirst lookup?) (h' : other.BlamesFirst lookup?) : error = other := by
  obtain ⟨_, s, hs, hblames⟩ := h
  obtain ⟨_, t, ht, hblames'⟩ := h'
  rw [hblames.cause, hblames'.cause, hs.unique ht]

theorem Error.BlamesFirst.not_everywhere {lookup? : List Nat → Option Statement} {error : Error}
    (h : error.BlamesFirst lookup?) : ¬ Everywhere lookup? (·.span.Proper) := by
  obtain ⟨address, s, hs, -⟩ := h
  exact fun hall => hs.lacks (hall address s hs.found)

/-! ## The first invalid span -/

theorem invalidSpan?_eq (s : Statement) : invalidSpan? s =
    if s.span.isValid then invalidSpanIn? s.bodyStatements
    else some (.invalidSpan s.names s.kind s.span) := by
  obtain ⟨_, _, _, _, _, _, _, _, _, _, _, _, _, _, body⟩ := s
  cases body with
  | none => rfl
  | some statements => rfl

theorem invalidSpan?_eq_none_iff_everywhere {s : Statement} : invalidSpan? s = none ↔
    Everywhere (below? Statement.bodyStatements s) (·.span.Proper) := by
  induction s using Statement.bodyInduction with
  | step s ih =>
    rw [invalidSpan?_eq_none_iff, everywhere_below?_iff, everywhere_at?_iff, Span.isValid_iff]
    exact and_congr_right fun _ => forall₂_congr ih

theorem invalidSpanIn?_eq_none_iff_everywhere {unit : SourceUnit} :
    invalidSpanIn? unit.statements = none ↔ Everywhere unit.statementAt? (·.span.Proper) := by
  rw [invalidSpanIn?_eq_none_iff, SourceUnit.statementAt?, everywhere_at?_iff]
  exact forall₂_congr fun _ _ => invalidSpan?_eq_none_iff_everywhere

theorem blamesFirst_of_invalidSpanIn? {statements : List Statement}
    (ih : ∀ s ∈ statements, ∀ error, invalidSpan? s = some error →
      error.BlamesFirst (below? Statement.bodyStatements s))
    {error : Error} (h : invalidSpanIn? statements = some error) :
    error.BlamesFirst (at? Statement.bodyStatements statements) := by
  induction statements with
  | nil => exact absurd h (by simp [invalidSpanIn?])
  | cons s statements ihs =>
    rw [List.forall_mem_cons] at ih
    rw [invalidSpanIn?] at h
    cases hs : invalidSpan? s with
    | some found =>
      rw [hs] at h
      obtain rfl := Option.some.inj h
      obtain ⟨address, t, ht, hblames⟩ := ih.1 found hs
      exact ⟨0 :: address, t, ht.inHead, hblames⟩
    | none =>
      -- nothing is wrong in the first statement, so the search goes on behind it
      rw [hs] at h
      obtain ⟨address, t, ht, hblames⟩ := ihs ih.2 h
      obtain ⟨address', ht'⟩ := ht.inTail (invalidSpan?_eq_none_iff_everywhere.1 hs)
      exact ⟨address', t, ht', hblames⟩

theorem blamesFirst_of_invalidSpan? {s : Statement} {error : Error}
    (h : invalidSpan? s = some error) :
    error.BlamesFirst (below? Statement.bodyStatements s) := by
  induction s using Statement.bodyInduction generalizing error with
  | step s ih =>
    rw [invalidSpan?_eq] at h
    by_cases hs : s.span.isValid = true
    · rw [if_pos hs] at h
      obtain ⟨address, t, ht, hblames⟩ :=
        blamesFirst_of_invalidSpanIn? (fun t hmem _ => ih t hmem) h
      exact ⟨address, t, ht.inside (Span.isValid_iff.1 hs), hblames⟩
    · rw [if_neg hs] at h
      obtain rfl := Option.some.inj h
      exact ⟨[], s, firstWithout_self (mt Span.isValid_iff.2 hs), Error.blames_invalidSpan s⟩

theorem invalidSpanIn?_eq_some_iff {unit : SourceUnit} {error : Error} :
    invalidSpanIn? unit.statements = some error ↔ error.BlamesFirst unit.statementAt? := by
  have hfirst : ∀ {found}, invalidSpanIn? unit.statements = some found →
      found.BlamesFirst unit.statementAt? :=
    blamesFirst_of_invalidSpanIn? fun _ _ _ => blamesFirst_of_invalidSpan?
  refine ⟨hfirst, fun h => ?_⟩
  have hsome := mt invalidSpanIn?_eq_none_iff_everywhere.1 h.not_everywhere
  obtain ⟨found, hfound⟩ := Option.ne_none_iff_exists'.1 hsome
  rw [hfound, (hfirst hfound).unique h]

/-! ## Items of a document -/

/-- The items that a record lists under a name. -/
def listed (name : String) : Data → List Data
  | .record fields =>
    match Data.field? fields name with
    | some (.list items) => items
    | _ => []
  | _ => []

/-- The item is decoded to the statement. -/
def DecodesTo (item : Data) (s : Statement) : Prop :=
  decodeStatement item = .valid s

/-- The item at an address of a document. -/
def itemAt? (document : Data) : List Nat → Option Data :=
  at? (listed "body") (listed "statements" document)

section

variable {α β : Type}

theorem Validated.exists_map_valid {f : α → β} {x : Validated α} {q : β → Prop} :
    (∃ b, f <$> x = .valid b ∧ q b) ↔ ∃ a, x = .valid a ∧ q (f a) := by
  cases x with
  | valid a => simp [Functor.map, map]
  | invalid faults => simp [Functor.map, map]

theorem Validated.exists_seq_valid {f : Validated (α → β)} {x : Validated α} {q : β → Prop} :
    (∃ b, f <*> x = .valid b ∧ q b) ↔
      ∃ g, f = .valid g ∧ ∃ a, x = .valid a ∧ q (g a) := by
  cases f with
  | valid g =>
    cases x with
    | valid a => simp [Seq.seq, apply]
    | invalid faults => simp [Seq.seq, apply]
  | invalid faults =>
    cases x with
    | valid a => simp [Seq.seq, apply]
    | invalid more => simp [Seq.seq, apply]

theorem Validated.within_eq_valid_iff {step : Step} {x : Validated α} {a : α} :
    within step x = .valid a ↔ x = .valid a := by
  cases x with
  | valid b => rfl
  | invalid faults => simp [within]

end

theorem forall₂_decodeStatements {index : Nat} {items : List Data} {statements : List Statement}
    (h : decodeStatements index items = .valid statements) :
    List.Forall₂ DecodesTo items statements := by
  induction items generalizing index statements with
  | nil =>
    rw [decodeStatements] at h
    obtain rfl := Validated.valid.inj h
    exact .nil
  | cons item items ih =>
    have hvalid : ∃ found, decodeStatements index (item :: items) = .valid found ∧
        found = statements := ⟨statements, h, rfl⟩
    rw [decodeStatements, Validated.exists_seq_valid, Validated.exists_map_valid] at hvalid
    obtain ⟨s, hs, rest, hrest, rfl⟩ := hvalid
    exact .cons (Validated.within_eq_valid_iff.1 hs) (ih hrest)

theorem forall₂_decodeBody {fields : List (String × Data)} {body : Option (List Statement)}
    (h : decodeBody fields = .valid body) :
    List.Forall₂ DecodesTo (listed "body" (.record fields)) (body.getD []) := by
  rw [decodeBody_eq, withDefault, Validated.within_eq_valid_iff] at h
  rw [listed]
  cases hfield : Data.field? fields "body" with
  | none =>
    rw [hfield] at h
    obtain rfl := Validated.valid.inj h
    exact .nil
  | some data =>
    rw [hfield] at h
    dsimp only at h
    cases data with
    | list items =>
      rw [decodeBodyValue] at h
      obtain ⟨statements, hstatements, rfl⟩ := Validated.exists_map_valid.1 ⟨body, h, rfl⟩
      exact forall₂_decodeStatements hstatements
    | null =>
      obtain rfl := Validated.valid.inj h
      exact .nil
    | _ => exact absurd h (by simp [decodeBodyValue, Validated.fault])

theorem DecodesTo.body {item : Data} {s : Statement} (h : DecodesTo item s) :
    List.Forall₂ DecodesTo (listed "body" item) s.bodyStatements := by
  rw [DecodesTo] at h
  cases item with
  | record fields =>
    have hvalid : ∃ found, decodeStatement (.record fields) = .valid found ∧ found = s :=
      ⟨s, h, rfl⟩
    simp only [decodeStatement, Validated.exists_seq_valid, Validated.exists_map_valid] at hvalid
    obtain ⟨kind, -, span, -, names, -, reads, -, comment, -, leading, -, callee, -, value, -,
      moduleName, -, specifiers, -, members, -, target, -, isPropsType, -, exported, -, body, hbody,
      rfl⟩ := hvalid
    exact forall₂_decodeBody hbody
  | _ => exact absurd h (by simp [decodeStatement, Validated.fault])

theorem forall₂_decodeUnit {data : Data} {given : SourceUnit} (h : decodeUnit data = .valid given) :
    List.Forall₂ DecodesTo (listed "statements" data) given.statements := by
  cases data with
  | record fields =>
    have hvalid : ∃ found, decodeUnit (.record fields) = .valid found ∧ found = given :=
      ⟨given, h, rfl⟩
    simp only [decodeUnit, Validated.exists_seq_valid, Validated.exists_map_valid] at hvalid
    obtain ⟨name, -, statements, hstatements, source, -, rfl⟩ := hvalid
    rw [required, Validated.within_eq_valid_iff] at hstatements
    rw [listed]
    cases hfield : Data.field? fields "statements" with
    | none =>
      rw [hfield] at hstatements
      exact absurd hstatements (by simp [Validated.fault])
    | some data =>
      rw [hfield] at hstatements
      dsimp only at hstatements
      cases data with
      | list items => exact forall₂_decodeStatements hstatements
      | _ => exact absurd hstatements (by simp [decodeStatementList, Validated.fault])
  | _ => exact absurd h (by simp [decodeUnit, Validated.fault])

/-! ## Reading -/

section

variable {data : Data} {given : SourceUnit} (h : decodeUnit data = .valid given)

include h

theorem read_eq_error_iff {error : Error} :
    read data = .error error ↔ invalidSpanIn? given.statements = some error := by
  unfold read
  rw [h]
  dsimp only
  cases invalidSpanIn? given.statements with
  | none => simp
  | some found => simp

theorem read_eq_ok_iff {unit : SourceUnit} : read data = .ok unit ↔
    invalidSpanIn? given.statements = none ∧
      unit = { given with statements := tidyAll given.statements } := by
  unfold read
  rw [h]
  dsimp only
  cases invalidSpanIn? given.statements with
  | none => simp [eq_comm]
  | some found => simp

end

/-- A statement of a document as it is loaded. -/
structure LoadedAs (s t : Statement) : Prop where
  span : t.span = s.span
  names : t.names = s.names.filter (· ≠ "")
  reads : ∀ name, name ∈ t.reads ↔ name ∈ s.reads ∧ name ≠ ""

theorem loadedAs_tidy (s : Statement) : LoadedAs s (tidy s) := by
  have hempty : ∀ text : String, (!text.isEmpty) = decide (text ≠ "") := by
    intro text
    rw [Bool.eq_iff_iff]
    simp
  rw [tidy_eq]
  refine ⟨rfl, List.filter_congr fun text _ => hempty text, fun name => ?_⟩
  rw [mem_textSet, List.mem_filter, hempty, decide_eq_true_eq]

theorem rel_statementAt?_tidyAll (given : SourceUnit) (address : List Nat) :
    Option.Rel LoadedAs (given.statementAt? address)
      (SourceUnit.statementAt? { given with statements := tidyAll given.statements } address) := by
  have hmap : ∀ statements : List Statement,
      List.Forall₂ (fun s t => t = tidy s) statements (statements.map tidy) := fun statements =>
    List.forall₂_map_right_iff.2 (List.forall₂_same.2 fun _ _ => rfl)
  have hbody : ∀ s t : Statement, t = tidy s →
      List.Forall₂ (fun s t => t = tidy s) s.bodyStatements t.bodyStatements := by
    rintro s _ rfl
    rw [bodyStatements_tidy]
    exact hmap s.bodyStatements
  have hroots : List.Forall₂ (fun s t => t = tidy s) given.statements
      (tidyAll given.statements) := by
    rw [tidyAll_eq_map]
    exact hmap given.statements
  have hrel : Option.Rel (fun s t => t = tidy s) (given.statementAt? address)
      (SourceUnit.statementAt? { given with statements := tidyAll given.statements } address) :=
    rel_at? hbody hroots address
  generalize given.statementAt? address = x at *
  generalize SourceUnit.statementAt? _ address = y at *
  cases hrel with
  | none => exact .none
  | some ht => exact .some (ht ▸ loadedAs_tidy _)

theorem everywhere_of_clean {s : Statement} (h : s.Clean) :
    Everywhere (below? Statement.bodyStatements s) Statement.Proper := by
  induction h with
  | intro proper _ ih => exact everywhere_below?_iff.2 ⟨proper, everywhere_at?_iff.2 ih⟩

/-- How the statements of a document, as they are given in it, decide about reading it. -/
structure SpansChecked (data : Data) (given : SourceUnit) : Prop where
  /-- The statements given are the items of the document, at every depth. -/
  covered : ∀ address, Option.Rel DecodesTo (itemAt? data address) (given.statementAt? address)
  accepted : (∃ unit, read data = .ok unit) ↔ Everywhere given.statementAt? (·.span.Proper)
  refused : ¬ Everywhere given.statementAt? (·.span.Proper) → ∃ error, read data = .error error
  blamed : ∀ error, read data = .error error ↔ error.BlamesFirst given.statementAt?
  /-- Loading leaves every statement at its address. -/
  loaded : ∀ unit, read data = .ok unit → ∀ address,
    Option.Rel LoadedAs (given.statementAt? address) (unit.statementAt? address)
  clean : ∀ unit, read data = .ok unit → Everywhere unit.statementAt? fun t =>
    t.span.Proper ∧ "" ∉ t.names ∧ "" ∉ t.reads

/-- A document that can be decoded is read exactly when every statement in it, at every depth, has a
span that starts at no negative offset and does not end before it starts. Otherwise reading it fails
for the first statement in pre-order without such a span, and the message has the names of that
statement as they are given, or its kind, and its span. Every statement of the document is checked
and loaded, and what is loaded has no empty names and reads. -/
theorem spans_checked_everywhere (data : Data) (given : SourceUnit)
    (h : decodeUnit data = .valid given) : SpansChecked data given where
  covered := rel_at? (fun _ _ => DecodesTo.body) (forall₂_decodeUnit h)
  accepted := by
    simp only [read_eq_ok_iff h, exists_and_left, exists_eq, and_true]
    exact invalidSpanIn?_eq_none_iff_everywhere
  refused := by
    intro hinvalid
    rw [← invalidSpanIn?_eq_none_iff_everywhere] at hinvalid
    obtain ⟨error, herror⟩ := Option.ne_none_iff_exists'.1 hinvalid
    exact ⟨error, (read_eq_error_iff h).2 herror⟩
  blamed := by
    intro error
    rw [read_eq_error_iff h, invalidSpanIn?_eq_some_iff]
  loaded := by
    intro unit hunit
    obtain ⟨-, rfl⟩ := (read_eq_ok_iff h).1 hunit
    exact rel_statementAt?_tidyAll given
  clean := by
    intro unit hunit
    have hproper : Everywhere unit.statementAt? Statement.Proper :=
      everywhere_at?_iff.2 fun s hs => everywhere_of_clean (clean_of_read hunit s hs)
    intro address t ht
    obtain ⟨hspan, hnames, hreads, -⟩ := hproper address t ht
    exact ⟨Span.isValid_iff.1 hspan, fun hmem => absurd (hnames "" hmem) (by decide),
      fun hmem => absurd (hreads "" hmem) (by decide)⟩

/-- A document with three invalid spans: two in the body of a function inside the component, the
first of them of a statement with an empty name, and one of an import behind the component. -/
def askew : Data :=
  .record [("unit", .text "App.tsx"), ("statements", .list
    [.record [("kind", .text "function"), ("names", .list [.text "App"]),
      ("span", .record [("start", .int 0), ("end", .int 40)]),
      ("body", .list
        [.record [("kind", .text "variable"), ("names", .list [.text "a"]),
          ("span", .record [("start", .int 13), ("end", .int 20)])],
        .record [("kind", .text "function"), ("names", .list [.text "f"]),
          ("span", .record [("start", .int 20), ("end", .int 40)]),
          ("body", .list
            [.record [("kind", .text "expression"), ("names", .list [.text "", .text "b"]),
              ("span", .record [("start", .int 25), ("end", .int 21)])],
            .record [("kind", .text "return"),
              ("span", .record [("start", .int (-1)), ("end", .int 30)])]])]])],
    .record [("kind", .text "import"), ("span", .record [("start", .int 9), ("end", .int 1)])]])]

/-- The statements as they are given in it. -/
def askewUnit : SourceUnit where
  name := "App.tsx"
  statements :=
    [{ kind := .functionStmt, span := { start := 0, stop := 40 }, names := ["App"]
       body := some
        [{ kind := .variableStmt, span := { start := 13, stop := 20 }, names := ["a"] },
         { kind := .functionStmt, span := { start := 20, stop := 40 }, names := ["f"]
           body := some
            [{ kind := .expressionStmt, span := { start := 25, stop := 21 }, names := ["", "b"] },
             { kind := .returnStmt, span := { start := -1, stop := 30 } }] }] },
     { kind := .importStmt, span := { start := 9, stop := 1 } }]

theorem spans_checked_askew : decodeUnit askew = .valid askewUnit ∧ SpansChecked askew askewUnit ∧
    read askew = .error (.invalidSpan ["", "b"] .expressionStmt { start := 25, stop := 21 }) := by
  have hgiven : decodeUnit askew = .valid askewUnit := by rfl
  exact ⟨hgiven, spans_checked_everywhere askew askewUnit hgiven, by rfl⟩

end Document

end ComponentLint
