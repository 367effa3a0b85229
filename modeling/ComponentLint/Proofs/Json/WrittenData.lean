import ComponentLint.Proofs.Document.Encoding
import ComponentLint.Proofs.Json.RoundTrip
import ComponentLint.Proofs.ReportTotals
import ComponentLint.Report.Render
import Mathlib.Data.List.Nodup
/-
  What is written and what is read of it. The value that the text of a payload is read as is the
  payload up to the order of fields (`Data.SameUpToOrder`). The documents of all units and the data
  of all reports are payloads, so they are read back from what is written of them. Nothing is
  written of data with an integer that the reader would stop at.
-/

namespace ComponentLint

/-- The same value, whatever the order of the fields in its records. -/
inductive Data.SameUpToOrder : Data → Data → Prop where
  | null : SameUpToOrder .null .null
  | bool (value : Bool) : SameUpToOrder (.bool value) (.bool value)
  | int (value : Int) : SameUpToOrder (.int value) (.int value)
  | text (value : String) : SameUpToOrder (.text value) (.text value)
  | unpaired (value : UnpairedText) : SameUpToOrder (.unpaired value) (.unpaired value)
  | list {items others : List Data} (hlength : items.length = others.length)
    (h : ∀ (i : Nat) (a b : Data), items[i]? = some a → others[i]? = some b → SameUpToOrder a b) :
    SameUpToOrder (.list items) (.list others)
  | record {fields others : List (String × Data)}
    (hnames : (others.map Prod.fst).Perm (fields.map Prod.fst))
    (h : ∀ name a b, (name, a) ∈ fields → (name, b) ∈ others → SameUpToOrder a b) :
    SameUpToOrder (.record fields) (.record others)

namespace Json

theorem sameUpToOrder_sortFields {value : Data} (h : value.IsPayload) :
    value.SameUpToOrder (sortFields value) := by
  induction h with
  | null => exact .null
  | bool value => exact .bool value
  | int value => exact .int value
  | text value => exact .text value
  | unpaired value => exact .unpaired value
  | @list items _ ih =>
    rw [sortFields, sortFieldsItems_eq_map]
    refine .list (List.length_map sortFields).symm fun i a b ha hb => ?_
    rw [List.getElem?_map, ha, Option.map_some, Option.some.injEq] at hb
    rw [← hb]
    exact ih a (List.mem_of_getElem? ha)
  | @record fields hnames _ ih =>
    obtain ⟨sorted, heq, hperm⟩ := exists_sortFields_record fields
    rw [heq]
    refine .record (map_fst_perm_of_sorted hperm) fun name a b ha hb => ?_
    obtain ⟨⟨name', a'⟩, ha', hab⟩ := List.mem_map.1 (hperm.mem_iff.1 hb)
    obtain ⟨rfl, rfl⟩ := Prod.mk.inj hab
    have hsame : (name', a) = (name', a') := List.inj_on_of_nodup_map hnames ha ha' rfl
    rw [← (Prod.mk.inj hsame).2]
    exact ih _ ha

/-- With a limit that is high enough, every payload can be written. -/
theorem exists_isSpellable {value : Data} (h : value.IsPayload) :
    ∃ limit, ∀ more, limit ≤ more → value.isSpellable more = true := by
  have hall : ∀ {α : Type} {l : List α} {f : α → Data},
      (∀ a ∈ l, ∃ limit, ∀ more, limit ≤ more → (f a).isSpellable more = true) →
      ∃ limit, ∀ more, limit ≤ more → ∀ a ∈ l, (f a).isSpellable more = true := by
    intro α l f hl
    induction l with
    | nil => exact ⟨0, fun _ _ => nofun⟩
    | cons a l ih =>
      obtain ⟨first, hfirst⟩ := hl a List.mem_cons_self
      obtain ⟨rest, hrest⟩ := ih fun b hb => hl b (List.mem_cons_of_mem a hb)
      refine ⟨max first rest, fun more hmore => List.forall_mem_cons.2 ⟨?_, ?_⟩⟩
      · exact hfirst more (by omega)
      · exact hrest more (by omega)
  induction h with
  | null => exact ⟨0, fun _ _ => rfl⟩
  | bool value => exact ⟨0, fun _ _ => rfl⟩
  | int value => exact ⟨_, fun more hmore => decide_eq_true hmore⟩
  | text value => exact ⟨0, fun _ _ => rfl⟩
  | unpaired value => exact ⟨0, fun _ _ => rfl⟩
  | list _ ih =>
    obtain ⟨limit, hlimit⟩ := hall ih
    exact ⟨limit, fun more hmore => Data.areSpellable_iff.2 (hlimit more hmore)⟩
  | record _ _ ih =>
    obtain ⟨limit, hlimit⟩ := hall ih
    exact ⟨limit, fun more hmore => Data.fieldsSpellable_iff.2 (hlimit more hmore)⟩

/-- The text is ASCII and is read as the value. -/
structure ReadsBack (limit : Nat) (value : Data) (text : String) : Prop where
  ascii : IsAscii text.toList
  parsed : parse limit text = .ok (sortFields value)
  same : value.SameUpToOrder (sortFields value)

/-- What is written of a value reads back, and nothing is written of a value whose text the reader
would refuse for the length of an integer. -/
structure Faithful (limit : Nat) (value : Data) (text? : Option String) : Prop where
  writes : value.isSpellable limit = true → ∃ text, text? = some text ∧ ReadsBack limit value text
  refuses : value.isSpellable limit = false →
    text? = none ∧ parse limit (render value) = .error .integerTooLong

/-- A payload is written faithfully, with blanks after it or not. -/
theorem faithful_render? {value : Data} (h : value.IsPayload) (limit : Nat) (blanks : String)
    (hblanks : ∀ c ∈ blanks.toList, isSpace c = true) :
    Faithful limit value ((render? limit value).map (· ++ blanks)) := by
  constructor
  · intro hspell
    refine ⟨render value ++ blanks, by rw [render?, if_pos hspell]; rfl, ?_, ?_, ?_⟩
    · rw [String.toList_append, render, String.toList_ofList]
      exact isAscii_append.2
        ⟨isAscii_written (isPayload_sortFields h) 0, isAscii_of_isSpace hblanks⟩
    · rw [parse_render h limit blanks hblanks, if_pos hspell]
    · exact sameUpToOrder_sortFields h
  · intro hspell
    have hparse := parse_render h limit "" (by simp)
    rw [hspell] at hparse
    exact ⟨by simp [render?, hspell], by simpa using hparse⟩

end Json

/-! ## Documents -/

namespace Document

theorem map_fst_present_sublist (table : List (String × Option Data)) :
    ((present table).map Prod.fst).Sublist (table.map Prod.fst) := by
  induction table with
  | nil => exact List.Sublist.refl _
  | cons entry table ih =>
    obtain ⟨name, value⟩ := entry
    cases value with
    | none => exact ih.cons name
    | some data => exact ih.cons_cons name

theorem isPayload_present {table : List (String × Option Data)} (hnames : (table.map Prod.fst).Nodup)
    (h : ∀ entry ∈ table, ∀ data ∈ entry.2, data.IsPayload) :
    (Data.record (present table)).IsPayload := by
  refine .record (hnames.sublist (map_fst_present_sublist table)) fun field hfield => ?_
  obtain ⟨entry, hentry, hvalue⟩ := List.mem_filterMap.1 hfield
  obtain ⟨data, hdata, rfl⟩ := Option.map_eq_some_iff.1 hvalue
  exact h entry hentry data hdata

theorem isPayload_encodeTexts (values : List String) : (encodeTexts values).IsPayload :=
  .list (List.forall_mem_map.2 fun value _ => .text value)

theorem isPayload_encodeSpan (span : Span) : (encodeSpan span).IsPayload := by
  refine .record (by simp) ?_
  simp [Data.IsPayload.int]

theorem isPayload_encodeStatement (s : Statement) : (encodeStatement s).IsPayload := by
  induction s using Statement.bodyInduction with
  | step s ih =>
    rw [encodeStatement_eq]
    refine isPayload_present (nodup_statementTable s) ?_
    have hbody : ∀ statements, s.body = some statements →
        (Data.list (statements.map encodeStatement)).IsPayload := by
      intro statements hsome
      refine .list (List.forall_mem_map.2 fun t ht => ih t ?_)
      rwa [Statement.bodyStatements, hsome]
    simpa [statementTable, Data.IsPayload.text, Data.IsPayload.bool, Data.IsPayload.int,
      isPayload_encodeTexts, isPayload_encodeSpan] using hbody

theorem isPayload_encodeSource (source : SourceText) : (encodeSource source).IsPayload := by
  cases source with
  | text value => exact .text value
  | unpaired value => exact .unpaired value

theorem isPayload_encode (unit : SourceUnit) : (encode unit).IsPayload := by
  rw [encode_eq]
  refine isPayload_present (by simp [unitTable]) ?_
  have hstatements : (Data.list (unit.statements.map encodeStatement)).IsPayload :=
    .list (List.forall_mem_map.2 fun s _ => isPayload_encodeStatement s)
  simpa [unitTable, Data.IsPayload.text, isPayload_encodeSource] using hstatements

end Document

/-! ## Reports -/

namespace Report

theorem isPayload_violationData (v : Violation) : (violationData v).IsPayload := by
  have hrelated : (Data.list (v.related.map .text)).IsPayload :=
    .list (List.forall_mem_map.2 fun name _ => .text name)
  refine .record (by simp) ?_
  simpa [nat, Data.IsPayload.text, Data.IsPayload.int] using hrelated

theorem isPayload_diagnosticData (diagnostic : Diagnostic) :
    (diagnosticData diagnostic).IsPayload := by
  refine .record (by simp) ?_
  simp [Data.IsPayload.text]

/-- The fields of a result, in the order they are given. -/
def resultTable (result : LintResult) : List (String × Option Data) :=
  [("unit", some (.text result.unit)),
    ("violations", some (.list (result.violations.map violationData))),
    ("diagnostics", some (.list (result.diagnostics.map diagnosticData))),
    ("skipped_sections", some (.list (result.skippedSections.map fun place => .text place.id))),
    ("fixed", some (.bool result.fixed)),
    ("fixed_unit", result.fixedUnit.map Document.encode)]

theorem resultData_eq (result : LintResult) :
    resultData result = .record (Document.present (resultTable result)) := by
  simp only [resultTable, Document.present_cons_some, Document.present_cons_map]
  simp [resultData, Document.present]

theorem isPayload_resultData (result : LintResult) : (resultData result).IsPayload := by
  have hviolations : (Data.list (result.violations.map violationData)).IsPayload :=
    .list (List.forall_mem_map.2 fun v _ => isPayload_violationData v)
  have hdiagnostics : (Data.list (result.diagnostics.map diagnosticData)).IsPayload :=
    .list (List.forall_mem_map.2 fun diagnostic _ => isPayload_diagnosticData diagnostic)
  have hskipped : (Data.list (result.skippedSections.map fun place => .text place.id)).IsPayload :=
    .list (List.forall_mem_map.2 fun place _ => .text place.id)
  rw [resultData_eq]
  refine Document.isPayload_present (by simp [resultTable]) ?_
  simp [resultTable, Data.IsPayload.text, Data.IsPayload.bool, hviolations, hdiagnostics, hskipped,
    Document.isPayload_encode]

/-- No two totals have the same name. -/
theorem nodup_counts (report : Report) : (report.counts.map Prod.fst).Nodup := by
  have htallied : ((report.violations.foldl Totals.tally []).map Prod.fst).Nodup :=
    Totals.nodup_foldl_tally (by simp) report.violations
  exact Assoc.nodup_put (Assoc.nodup_put (Assoc.nodup_put htallied _ _) _ _) _ _

theorem isPayload_data (report : Report) : report.data.IsPayload := by
  have hresults : (Data.list (report.results.map resultData)).IsPayload :=
    .list (List.forall_mem_map.2 fun result _ => isPayload_resultData result)
  have hcounts :
      (Data.record (report.counts.map fun entry => (entry.1, nat entry.2))).IsPayload := by
    refine .record ?_ (List.forall_mem_map.2 fun entry _ => .int _)
    rw [List.map_map]
    exact nodup_counts report
  refine .record (by simp) ?_
  simp only [List.forall_mem_cons]
  exact ⟨hresults, hcounts, .text _, .int _, List.forall_mem_nil _⟩

end Report

/-- Written JSON reads back: what is written of a payload is ASCII and is read as the payload, as
long as the reader takes the integers in it, and with a limit that is high enough it does. This
holds for the documents of all units and for all reports, at the limit that the tool has. -/
theorem written_json_reads_back :
    (∀ value : Data, value.IsPayload → (∃ limit, value.isSpellable limit = true) ∧
      ∀ limit, Json.Faithful limit value (Json.render? limit value)) ∧
    (∀ unit, Json.Faithful Data.maxDigits (Document.encode unit) (Document.render? unit)) ∧
    ∀ report : Report, Json.Faithful Data.maxDigits report.data (report.render? .json) := by
  have hplain : ∀ {value : Data}, value.IsPayload → ∀ limit,
      Json.Faithful limit value (Json.render? limit value) := by
    intro value h limit
    have hfaithful := Json.faithful_render? h limit "" (by simp)
    simpa using hfaithful
  refine ⟨fun value h => ⟨?_, hplain h⟩, fun unit => ?_, fun report => ?_⟩
  · obtain ⟨limit, hlimit⟩ := Json.exists_isSpellable h
    exact ⟨limit, hlimit limit (Nat.le_refl limit)⟩
  · have hnewline : ∀ c ∈ "\n".toList, Json.isSpace c = true := by simp [Json.isSpace]
    exact Json.faithful_render? (Document.isPayload_encode unit) Data.maxDigits "\n" hnewline
  · exact hplain (Report.isPayload_data report) Data.maxDigits

end ComponentLint
