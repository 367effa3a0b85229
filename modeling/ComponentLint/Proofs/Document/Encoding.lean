import ComponentLint.Document.Basic
import Mathlib.Data.List.Basic
/-
  The document of a unit is decoded to the unit it was made of, whatever the unit
  (`decodeUnit_encode`). A record is the list of those entries of a table that have a value, and as
  no name stands twice in the table a field is looked up in the table (`field?_present`). So a
  field that was left out is found to be missing, and an empty text or an empty body is found as
  such.
-/

namespace ComponentLint

theorem Statement.sizeOf_lt_of_mem_bodyStatements {s t : Statement} (h : t ∈ s.bodyStatements) :
    sizeOf t < sizeOf s := by
  cases s with
  | mk kind span names reads comment leading callee value moduleName specifiers members target
      isPropsType exported body =>
    cases body with
    | none => exact absurd h (by simp [bodyStatements])
    | some statements =>
      have hlt : sizeOf t < sizeOf statements := List.sizeOf_lt_of_mem h
      simp only [mk.sizeOf_spec, Option.some.sizeOf_spec]
      omega

/-- Induction over statements and the statements in their bodies, at every depth. -/
theorem Statement.bodyInduction {motive : Statement → Prop}
    (step : ∀ s, (∀ t ∈ s.bodyStatements, motive t) → motive s) (s : Statement) : motive s :=
  step s fun t ht =>
    have := sizeOf_lt_of_mem_bodyStatements ht
    bodyInduction step t
termination_by sizeOf s

theorem StatementKind.ofId?_id (kind : StatementKind) : ofId? kind.id = some kind := by
  cases kind <;> decide

theorem ValueShape.ofId?_id (shape : ValueShape) : ofId? shape.id = some shape := by
  cases shape <;> decide

namespace Document

/-! ## Records -/

/-- The fields of a table that have a value. -/
def present (table : List (String × Option Data)) : List (String × Data) :=
  table.filterMap fun entry => entry.2.map (Prod.mk entry.1)

theorem present_cons_some (name : String) (data : Data) (table : List (String × Option Data)) :
    present ((name, some data) :: table) = (name, data) :: present table :=
  rfl

theorem present_cons_none (name : String) (table : List (String × Option Data)) :
    present ((name, none) :: table) = present table :=
  rfl

theorem present_cons_map {α : Type} (name : String) (write : α → Data) (value : Option α)
    (table : List (String × Option Data)) :
    present ((name, value.map write) :: table) =
      encodeOptional name write value ++ present table := by
  cases value with
  | none => rfl
  | some a => rfl

theorem field?_present_of_not_mem {name : String} {table : List (String × Option Data)}
    (h : name ∉ table.map Prod.fst) : Data.field? (present table) name = none := by
  refine List.lookup_eq_none_iff.2 fun field hfield => ?_
  obtain ⟨entry, hentry, hvalue⟩ := List.mem_filterMap.1 hfield
  obtain ⟨data, -, rfl⟩ := Option.map_eq_some_iff.1 hvalue
  have hne : name ≠ entry.1 := fun he => h (List.mem_map.2 ⟨entry, hentry, he.symm⟩)
  simpa using hne

/-- A field is looked up in the table. -/
theorem field?_present {name : String} {value : Option Data}
    {table : List (String × Option Data)} (h : (table.map Prod.fst).Nodup)
    (hm : (name, value) ∈ table) : Data.field? (present table) name = value := by
  induction table with
  | nil => exact absurd hm List.not_mem_nil
  | cons entry table ih =>
    obtain ⟨first, data⟩ := entry
    rw [List.map_cons, List.nodup_cons] at h
    rcases List.mem_cons.1 hm with he | hrest
    · obtain ⟨rfl, rfl⟩ := Prod.mk.inj he
      cases value with
      | none =>
        rw [present_cons_none]
        exact field?_present_of_not_mem h.1
      | some data => rw [present_cons_some, Data.field?, List.lookup_cons_self]
    · have hne : name ≠ first := fun he =>
        h.1 (List.mem_map.2 ⟨(name, value), hrest, he⟩)
      -- an entry with another name is passed over, whether it is written or not
      cases data with
      | none => exact ih h.2 hrest
      | some data =>
        rw [present_cons_some, Data.field?, List.lookup_cons, beq_false_of_ne hne]
        exact ih h.2 hrest

/-! ## Fields -/

section

variable {α : Type} {fields : List (String × Data)} {name : String} {data : Data} {a : α}

@[simp] theorem Validated.within_valid (step : Step) (a : α) : within step (valid a) = valid a :=
  rfl

theorem checked_of_ok {read : Data → Except FaultKind α} (h : read data = .ok a) :
    checked read data = .valid a := by
  rw [checked, h]

theorem required_of_field? {check : Data → Validated α} (h : Data.field? fields name = some data)
    (ha : check data = .valid a) : required fields name check = .valid a := by
  rw [required, h]
  dsimp only
  rw [ha, Validated.within_valid]

theorem withDefault_of_field? {check : Data → Validated α} {value : α}
    (h : Data.field? fields name = some data) (ha : check data = .valid a) :
    withDefault fields name value check = .valid a := by
  rw [withDefault, h]
  dsimp only
  rw [ha, Validated.within_valid]

/-- What is written and is not null is read back, and so is a field that was left out. -/
theorem optional_of_field? {read : Data → Except FaultKind α} (write : α → Data)
    {value : Option α} (h : Data.field? fields name = value.map write)
    (hnull : ∀ a, write a ≠ .null) (hread : ∀ a, read (write a) = .ok a) :
    optional fields name read = .valid value := by
  rw [optional, withDefault, h]
  cases value with
  | none => rfl
  | some a =>
    rw [Option.map_some]
    dsimp only
    split
    · next hw => exact absurd hw (hnull a)
    · rw [checked_of_ok (hread a)]
      rfl

theorem textItems_map (index : Nat) (values : List String) :
    textItems index (values.map .text) = .valid values := by
  induction values generalizing index with
  | nil => rfl
  | cons value values ih =>
    rw [List.map_cons, textItems, ih]
    rfl

theorem texts_of_field? {values : List String}
    (h : Data.field? fields name = some (encodeTexts values)) :
    texts fields name = .valid values :=
  withDefault_of_field? h (textItems_map 0 values)

theorem readMember_text {ofId? : String → Option α} {id : String} (h : ofId? id = some a) :
    readMember ofId? (.text id) = .ok a := by
  rw [readMember, h]

end

theorem decodeSpan_encodeSpan (span : Span) : decodeSpan (encodeSpan span) = .valid span :=
  rfl

/-! ## Statements -/

theorem encodeStatements_eq_map (statements : List Statement) :
    encodeStatements statements = statements.map encodeStatement := by
  induction statements with
  | nil => rfl
  | cons s statements ih => rw [encodeStatements, ih, List.map_cons]

theorem decodeBody_eq (fields : List (String × Data)) :
    decodeBody fields = withDefault fields "body" none decodeBodyValue := by
  induction fields with
  | nil => rfl
  | cons field fields ih =>
    obtain ⟨name, data⟩ := field
    rw [decodeBody]
    split
    · next h => rw [withDefault, Data.field?, h, List.lookup_cons_self]
    · next h =>
      rw [ih, withDefault, withDefault, Data.field?, Data.field?, List.lookup_cons,
        beq_false_of_ne fun he => h he.symm]

/-- The fields of a statement, in the order they are written. -/
def statementTable (s : Statement) : List (String × Option Data) :=
  [("kind", some (.text s.kind.id)), ("span", some (encodeSpan s.span)),
    ("names", some (encodeTexts s.names)), ("reads", some (encodeTexts s.reads)),
    ("leading_comment", s.leadingComment.map .text), ("leading_start", s.leadingStart.map .int),
    ("callee", s.callee.map .text), ("value", s.value.map fun shape => .text shape.id),
    ("module", s.moduleName.map .text), ("specifiers", some (encodeTexts s.specifiers)),
    ("members", some (encodeTexts s.members)), ("target", s.target.map .text),
    ("is_props_type", some (.bool s.isPropsType)), ("exported", some (.bool s.exported)),
    ("body", s.body.map fun statements => .list (statements.map encodeStatement))]

theorem nodup_statementTable (s : Statement) : ((statementTable s).map Prod.fst).Nodup := by
  simp [statementTable]

theorem encodeStatement_eq (s : Statement) :
    encodeStatement s = .record (present (statementTable s)) := by
  have hbody : ∀ body, encodeBody body =
      encodeOptional "body" (fun statements => .list (statements.map encodeStatement)) body := by
    intro body
    cases body with
    | none => rfl
    | some statements => rw [encodeBody, encodeStatements_eq_map, encodeOptional]
  cases s
  rw [encodeStatement, hbody]
  simp only [statementTable, present_cons_some, present_cons_map, List.append_assoc,
    List.cons_append, List.nil_append]
  rw [present, List.filterMap_nil, List.append_nil]

theorem decodeStatements_map {statements : List Statement}
    (h : ∀ s ∈ statements, decodeStatement (encodeStatement s) = .valid s) (index : Nat) :
    decodeStatements index (statements.map encodeStatement) = .valid statements := by
  induction statements generalizing index with
  | nil => rfl
  | cons s statements ih =>
    rw [List.map_cons, decodeStatements, h s List.mem_cons_self,
      ih fun t ht => h t (List.mem_cons_of_mem s ht)]
    rfl

theorem decodeBody_of_field? {fields : List (String × Data)} {body : Option (List Statement)}
    (hf : Data.field? fields "body" =
      body.map fun statements => .list (statements.map encodeStatement))
    (h : ∀ s ∈ body.getD [], decodeStatement (encodeStatement s) = .valid s) :
    decodeBody fields = .valid body := by
  rw [decodeBody_eq, withDefault, hf]
  cases body with
  | none => rfl
  | some statements =>
    rw [Option.map_some]
    have hitems : decodeStatements 0 (statements.map encodeStatement) = .valid statements :=
      decodeStatements_map h 0
    dsimp only
    rw [decodeBodyValue, hitems]
    rfl

theorem decodeStatement_encodeStatement (s : Statement) :
    decodeStatement (encodeStatement s) = .valid s := by
  induction s using Statement.bodyInduction with
  | step s ih =>
    have hfield : ∀ {name value}, (name, value) ∈ statementTable s →
        Data.field? (present (statementTable s)) name = value :=
      field?_present (nodup_statementTable s)
    have htexts : ∀ name values, (name, some (encodeTexts values)) ∈ statementTable s →
        texts (present (statementTable s)) name = .valid values :=
      fun _ _ hm => texts_of_field? (hfield hm)
    have htext : ∀ name value, (name, value.map .text) ∈ statementTable s →
        optional (present (statementTable s)) name readText = .valid value :=
      fun _ _ hm => optional_of_field? .text (hfield hm) nofun fun _ => rfl
    have hbool : ∀ name value, (name, some (.bool value)) ∈ statementTable s →
        withDefault (present (statementTable s)) name false (checked readBoolean) = .valid value :=
      fun _ _ hm => withDefault_of_field? (hfield hm) rfl
    have hkind : required (present (statementTable s)) "kind"
        (checked (readMember StatementKind.ofId?)) = .valid s.kind :=
      required_of_field? (hfield (by simp [statementTable]))
        (checked_of_ok (readMember_text s.kind.ofId?_id))
    have hspan : required (present (statementTable s)) "span" decodeSpan = .valid s.span :=
      required_of_field? (hfield (by simp [statementTable])) (decodeSpan_encodeSpan s.span)
    have hleading : optional (present (statementTable s)) "leading_start" readInteger =
        .valid s.leadingStart :=
      optional_of_field? .int (hfield (by simp [statementTable])) nofun fun _ => rfl
    have hvalue : optional (present (statementTable s)) "value" (readMember ValueShape.ofId?) =
        .valid s.value :=
      optional_of_field? (fun shape => .text shape.id) (hfield (by simp [statementTable])) nofun
        fun shape => readMember_text shape.ofId?_id
    have hbody : decodeBody (present (statementTable s)) = .valid s.body :=
      decodeBody_of_field? (hfield (by simp [statementTable])) ih
    rw [encodeStatement_eq, decodeStatement, hkind, hspan, htexts "names" s.names,
      htexts "reads" s.reads, htext "leading_comment" s.leadingComment, hleading,
      htext "callee" s.callee, hvalue, htext "module" s.moduleName,
      htexts "specifiers" s.specifiers, htexts "members" s.members, htext "target" s.target,
      hbool "is_props_type" s.isPropsType, hbool "exported" s.exported, hbody]
    · cases s
      rfl
    all_goals simp [statementTable]

/-! ## Units -/

/-- The fields of a unit, in the order they are written. -/
def unitTable (unit : SourceUnit) : List (String × Option Data) :=
  [("unit", some (.text unit.name)),
    ("statements", some (.list (unit.statements.map encodeStatement))),
    ("source", unit.source.map encodeSource)]

theorem encode_eq (unit : SourceUnit) : encode unit = .record (present (unitTable unit)) := by
  rw [encode, encodeStatements_eq_map, unitTable, present_cons_some, present_cons_some,
    present_cons_map]
  rw [present, List.filterMap_nil, List.append_nil]
  rfl

theorem encodeSource_ne_null (source : SourceText) : encodeSource source ≠ .null := by
  cases source <;> simp [encodeSource]

theorem readSource_encodeSource (source : SourceText) :
    readSource (encodeSource source) = .ok source := by
  cases source <;> rfl

/-- A unit is what its document is decoded to. -/
theorem decodeUnit_encode (unit : SourceUnit) : decodeUnit (encode unit) = .valid unit := by
  have hfield : ∀ {name value}, (name, value) ∈ unitTable unit →
      Data.field? (present (unitTable unit)) name = value :=
    field?_present (by simp [unitTable])
  have htext : checked readText (.text unit.name) = .valid unit.name := rfl
  have hname : required (present (unitTable unit)) "unit" (checked readText) = .valid unit.name :=
    required_of_field? (hfield (by simp [unitTable])) htext
  have hlist : decodeStatementList (.list (unit.statements.map encodeStatement)) =
      .valid unit.statements :=
    decodeStatements_map (fun s _ => decodeStatement_encodeStatement s) 0
  have hstatements : required (present (unitTable unit)) "statements" decodeStatementList =
      .valid unit.statements :=
    required_of_field? (hfield (by simp [unitTable])) hlist
  have hsource : optional (present (unitTable unit)) "source" readSource = .valid unit.source :=
    optional_of_field? encodeSource (hfield (by simp [unitTable])) encodeSource_ne_null
      readSource_encodeSource
  rw [encode_eq, decodeUnit, hname, hstatements, hsource]
  rfl

end Document

end ComponentLint
