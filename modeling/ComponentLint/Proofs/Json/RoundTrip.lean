import ComponentLint.Proofs.Json.Integers
import ComponentLint.Proofs.Lists
/-
  Written JSON reads back. A payload (`Data.IsPayload`) is made of what the tool writes: no
  fractions and no moments, and no name twice in a record. The text of a payload is read as the
  payload with the fields of every record in order (`parse_render`), unless an integer in it has too
  many digits for the reader. The writer gives up on just these.
-/

namespace ComponentLint

/-- What the tool writes: no fractions and no moments, and no name twice in a record. -/
inductive Data.IsPayload : Data → Prop where
  | null : IsPayload .null
  | bool (value : Bool) : IsPayload (.bool value)
  | int (value : Int) : IsPayload (.int value)
  | text (value : String) : IsPayload (.text value)
  | unpaired (value : UnpairedText) : IsPayload (.unpaired value)
  | list {items : List Data} (h : ∀ item ∈ items, IsPayload item) : IsPayload (.list items)
  | record {fields : List (String × Data)} (hnames : (fields.map Prod.fst).Nodup)
    (h : ∀ field ∈ fields, IsPayload field.2) : IsPayload (.record fields)

theorem Data.areSpellable_iff {limit : Nat} {items : List Data} :
    areSpellable limit items = true ↔ ∀ item ∈ items, item.isSpellable limit = true := by
  induction items with
  | nil => simp [areSpellable]
  | cons item items ih => simp [areSpellable, ih]

theorem Data.fieldsSpellable_iff {limit : Nat} {fields : List (String × Data)} :
    fieldsSpellable limit fields = true ↔ ∀ field ∈ fields, field.2.isSpellable limit = true := by
  induction fields with
  | nil => simp [fieldsSpellable]
  | cons field fields ih => simp [fieldsSpellable, ih]

theorem CodePoint.map_shown_map_char (cs : List Char) : (cs.map char).map shown = cs := by
  rw [List.map_map]
  exact List.map_id cs

theorem Data.ofPoints_toList (value : String) : ofPoints (value.toList.map .char) = .text value := by
  have hchars : (value.toList.map CodePoint.char).any (·.isSurrogate) = false := by
    simp [CodePoint.isSurrogate]
  rw [ofPoints, dif_neg (by simp [hchars]), CodePoint.map_shown_map_char, String.ofList_toList]

theorem Data.ofPoints_points (value : UnpairedText) : ofPoints value.points = .unpaired value :=
  dif_pos ⟨value.surrogates, value.unpaired⟩

namespace Json

/-! ## Blanks -/

theorem skipSpace_append {blanks : List Char} (h : ∀ c ∈ blanks, isSpace c = true)
    (cs : List Char) : skipSpace (blanks ++ cs) = skipSpace cs :=
  List.dropWhile_append_of_pos h

theorem skipSpace_cons {c : Char} (h : isSpace c = false) (cs : List Char) :
    skipSpace (c :: cs) = c :: cs := by
  rw [skipSpace, List.dropWhile_cons, h]
  rfl

theorem isSpace_of_mem_newLine {level : Nat} {c : Char} (h : c ∈ newLine level) :
    isSpace c = true := by
  rcases List.mem_cons.1 h with rfl | h
  · rfl
  · rw [List.eq_of_mem_replicate h]
    rfl

theorem skipSpace_newLine (level : Nat) {c : Char} (h : isSpace c = false) (cs : List Char) :
    skipSpace (newLine level ++ c :: cs) = c :: cs := by
  rw [skipSpace_append fun _ => isSpace_of_mem_newLine, skipSpace_cons h]

theorem ends_newLine (level : Nat) (cs : List Char) : Ends (newLine level ++ cs) :=
  ends_cons (by decide) _

/-! ## Values -/

/-- The text of a value begins with a character that belongs to it and closes nothing. -/
theorem exists_cons_written {value : Data} (h : value.IsPayload) (level : Nat) :
    ∃ c cs, written level value = c :: cs ∧ isSpace c = false ∧ c ≠ ']' := by
  cases h with
  | null => exact ⟨_, _, rfl, by decide, by decide⟩
  | bool value =>
    cases value with
    | true => exact ⟨_, _, rfl, by decide, by decide⟩
    | false => exact ⟨_, _, rfl, by decide, by decide⟩
  | text value => exact ⟨_, _, rfl, by decide, by decide⟩
  | unpaired value => exact ⟨_, _, rfl, by decide, by decide⟩
  | @list items _ =>
    cases items with
    | nil => exact ⟨_, _, rfl, by decide, by decide⟩
    | cons item items => exact ⟨_, _, rfl, by decide, by decide⟩
  | @record fields _ _ =>
    cases fields with
    | nil => exact ⟨_, _, rfl, by decide, by decide⟩
    | cons field fields => exact ⟨_, _, rfl, by decide, by decide⟩
  | int value =>
    obtain ⟨c, cs, hcs, hc⟩ := exists_cons_int value
    exact ⟨c, cs, hcs, hc.isSpace, hc.ne_of (by decide)⟩

/-- The value is read back from its text, at any level and whatever follows, with fuel for each of
its characters; the reader stops at an integer that is too long for it. -/
def ReadsAs (limit : Nat) (value : Data) : Prop :=
  ∀ level fuel rest, (written level value).length ≤ fuel → Ends rest →
    readValue limit fuel (written level value ++ rest) =
      if value.isSpellable limit then .ok (value, rest) else .error .integerTooLong

/-- The text of a value is not empty, so the reader has fuel to begin with. -/
theorem ReadsAs.of_succ {limit : Nat} {value : Data} (hvalue : value.IsPayload)
    (h : ∀ level fuel rest, (written level value).length ≤ fuel + 1 → Ends rest →
      readValue limit (fuel + 1) (written level value ++ rest) =
        if value.isSpellable limit then .ok (value, rest) else .error .integerTooLong) :
    ReadsAs limit value := by
  intro level fuel rest hfuel hrest
  obtain ⟨c, cs, hcs, -⟩ := exists_cons_written hvalue level
  cases fuel with
  | zero =>
    rw [hcs] at hfuel
    exact absurd hfuel (Nat.not_succ_le_zero _)
  | succ fuel => exact h level fuel rest hfuel hrest

theorem readsAs_null (limit : Nat) : ReadsAs limit .null :=
  .of_succ .null fun _ _ _ _ _ => rfl

theorem readsAs_bool (limit : Nat) (value : Bool) : ReadsAs limit (.bool value) := by
  refine .of_succ (.bool value) fun level fuel rest _ _ => ?_
  cases value with
  | true => rfl
  | false => rfl

theorem readsAs_int (limit : Nat) (value : Int) : ReadsAs limit (.int value) := by
  refine .of_succ (.int value) fun level fuel rest _ hrest => ?_
  obtain ⟨c, cs, hcs, hc⟩ := exists_cons_int value
  have hscalar := readScalar_int limit value hrest
  rw [hcs, List.cons_append] at hscalar
  rw [written, hcs, List.cons_append, readValue, hscalar]
  · simp [Data.isSpellable]
  · exact fun _ heq => hc.ne_of (by decide) (List.cons.inj heq).1
  · exact fun _ heq => hc.ne_of (by decide) (List.cons.inj heq).1
  · exact fun _ heq => hc.ne_of (by decide) (List.cons.inj heq).1

theorem readsAs_text (limit : Nat) (value : String) : ReadsAs limit (.text value) := by
  refine .of_succ (.text value) fun level fuel rest _ _ => ?_
  obtain ⟨inner, hinner, hread⟩ := readString_stringText value rest
  rw [written, hinner, readValue, hread]
  simp [Data.isSpellable, Data.ofPoints_toList]

theorem readsAs_unpaired (limit : Nat) (value : UnpairedText) : ReadsAs limit (.unpaired value) := by
  refine .of_succ (.unpaired value) fun level fuel rest _ _ => ?_
  obtain ⟨inner, hinner, hread⟩ := readString_pointsText value.unpaired rest
  rw [written, hinner, readValue, hread]
  simp [Data.isSpellable, Data.ofPoints_points]

/-! ## Lists -/

theorem skipSpace_newLine_written {value : Data} (h : value.IsPayload) (indent level : Nat)
    (cs : List Char) :
    skipSpace (newLine indent ++ (written level value ++ cs)) = written level value ++ cs := by
  obtain ⟨c, text, htext, hspace, -⟩ := exists_cons_written h level
  rw [htext, List.cons_append, skipSpace_newLine indent hspace]

theorem skipSpace_blank_written {value : Data} (h : value.IsPayload) (level : Nat)
    (cs : List Char) :
    skipSpace (' ' :: (written level value ++ cs)) = written level value ++ cs := by
  obtain ⟨c, text, htext, hspace, -⟩ := exists_cons_written h level
  rw [htext, List.cons_append]
  exact skipSpace_cons hspace _

/-- What follows an item in a list. -/
def afterItem (level outer : Nat) (items : List Data) (rest : List Char) : List Char :=
  writtenItems level items ++ (newLine outer ++ ']' :: rest)

theorem ends_afterItem (level outer : Nat) (items : List Data) (rest : List Char) :
    Ends (afterItem level outer items rest) := by
  cases items with
  | nil => exact ends_newLine outer _
  | cons item items => exact ends_cons (by decide) _

theorem afterItem_cons (level outer : Nat) (item : Data) (items : List Data) (rest : List Char) :
    afterItem level outer (item :: items) rest =
      ',' :: (newLine level ++ (written level item ++ afterItem level outer items rest)) := by
  simp [afterItem, writtenItems]

theorem readItems_written {limit : Nat} (level outer : Nat) (rest : List Char) {items : List Data}
    {item : Data} (hpayload : ∀ other ∈ items, other.IsPayload) (hitem : ReadsAs limit item)
    (hitems : ∀ other ∈ items, ReadsAs limit other) {fuel : Nat}
    (hfuel : (written level item).length + (writtenItems level items).length < fuel) :
    readItems limit fuel (written level item ++ afterItem level outer items rest) =
      if Data.areSpellable limit (item :: items) then .ok (item :: items, rest)
      else .error .integerTooLong := by
  induction items generalizing item fuel with
  | nil =>
    obtain ⟨fuel, rfl⟩ := Nat.exists_eq_succ_of_ne_zero (Nat.ne_of_gt (Nat.zero_lt_of_lt hfuel))
    rw [readItems, hitem level fuel _ (by omega) (ends_afterItem level outer [] rest)]
    cases hspell : item.isSpellable limit with
    | false => simp [Data.areSpellable, hspell]
    | true =>
      have hclose : skipSpace (afterItem level outer [] rest) = ']' :: rest :=
        skipSpace_newLine outer (by decide) rest
      simp [Data.areSpellable, hspell, hclose]
  | cons next items ih =>
    obtain ⟨fuel, rfl⟩ := Nat.exists_eq_succ_of_ne_zero (Nat.ne_of_gt (Nat.zero_lt_of_lt hfuel))
    rw [readItems, hitem level fuel _ (by omega) (ends_afterItem level outer _ rest)]
    cases hspell : item.isSpellable limit with
    | false => simp [Data.areSpellable, hspell]
    | true =>
      have hlength : (writtenItems level (next :: items)).length =
          1 + (newLine level).length + (written level next).length +
            (writtenItems level items).length := by
        simp only [writtenItems, List.length_append, List.length_cons, List.cons_append]
        omega
      have hmore := @ih next (fun other hother => hpayload other (List.mem_cons_of_mem _ hother))
        (hitems next List.mem_cons_self)
        (fun other hother => hitems other (List.mem_cons_of_mem _ hother)) fuel (by omega)
      have hcomma : isSpace ',' = false := by decide
      simp only [afterItem_cons, if_true, skipSpace_cons hcomma,
        skipSpace_newLine_written (hpayload next List.mem_cons_self), hmore]
      cases hrest : Data.areSpellable limit (next :: items) with
      | false =>
        rw [Data.areSpellable] at hrest
        simp [Data.areSpellable, hspell, hrest]
      | true =>
        rw [Data.areSpellable] at hrest
        simp [Data.areSpellable, hspell, hrest]

theorem readsAs_list {limit : Nat} {items : List Data} (hpayload : ∀ item ∈ items, item.IsPayload)
    (h : ∀ item ∈ items, ReadsAs limit item) : ReadsAs limit (.list items) := by
  refine .of_succ (.list hpayload) fun level fuel rest hfuel _ => ?_
  cases items with
  | nil => rfl
  | cons item items =>
    have htext : written level (.list (item :: items)) ++ rest = '[' :: (newLine (level + 1) ++
        (written (level + 1) item ++ afterItem (level + 1) level items rest)) := by
      simp [written, afterItem]
    have hlength : (written level (.list (item :: items))).length = 1 + (newLine (level + 1)).length +
        (written (level + 1) item).length + (writtenItems (level + 1) items).length +
        (newLine level).length + 1 := by
      simp only [written, List.length_append, List.length_cons, List.cons_append, List.length_nil]
      omega
    have hitems := readItems_written (level + 1) level rest
      (fun other hother => hpayload other (List.mem_cons_of_mem item hother))
      (h item List.mem_cons_self)
      (fun other hother => h other (List.mem_cons_of_mem item hother))
      (show _ < fuel by omega)
    obtain ⟨c, text, hc, -, hclose⟩ := exists_cons_written (hpayload item List.mem_cons_self)
      (level + 1)
    rw [htext, readValue, skipSpace_newLine_written (hpayload item List.mem_cons_self)]
    split
    · next heq =>
      rw [hc, List.cons_append] at heq
      exact absurd (List.cons.inj heq).1 hclose
    · rw [hitems]
      cases hspell : Data.areSpellable limit (item :: items) with
      | false => simp [Data.isSpellable, hspell]
      | true => simp [Data.isSpellable, hspell]

/-! ## Records -/

theorem not_mem_of_nodup_append {done fields : List (String × Data)} {name : String} {value : Data}
    (h : ((done ++ (name, value) :: fields).map Prod.fst).Nodup) : name ∉ done.map Prod.fst := by
  rw [List.map_append, List.map_cons, List.nodup_append] at h
  exact fun hmem => h.2.2 name hmem name List.mem_cons_self rfl

/-- What follows a value in a record. -/
def afterField (level outer : Nat) (fields : List (String × Data)) (rest : List Char) : List Char :=
  writtenFields level fields ++ (newLine outer ++ '\x7d' :: rest)

theorem ends_afterField (level outer : Nat) (fields : List (String × Data)) (rest : List Char) :
    Ends (afterField level outer fields rest) := by
  cases fields with
  | nil => exact ends_newLine outer _
  | cons field fields => exact ends_cons (by decide) _

/-- A field with all that follows it in its record. -/
def fieldText (level outer : Nat) (name : String) (value : Data) (fields : List (String × Data))
    (rest : List Char) : List Char :=
  stringText name ++ (':' :: ' ' :: (written level value ++ afterField level outer fields rest))

theorem afterField_cons (level outer : Nat) (name : String) (value : Data)
    (fields : List (String × Data)) (rest : List Char) :
    afterField level outer ((name, value) :: fields) rest =
      ',' :: (newLine level ++ fieldText level outer name value fields rest) := by
  simp [afterField, writtenFields, fieldText]

theorem skipSpace_newLine_fieldText (indent level outer : Nat) (name : String) (value : Data)
    (fields : List (String × Data)) (rest : List Char) :
    skipSpace (newLine indent ++ fieldText level outer name value fields rest) =
      fieldText level outer name value fields rest :=
  skipSpace_newLine indent (by decide) _

/-- Reading a field: it is too long for the reader, or the last, or another one follows. -/
theorem readFields_fieldText {limit level outer fuel : Nat} {rest : List Char}
    {done fields : List (String × Data)} {name : String} {value : Data}
    (hname : name ∉ done.map Prod.fst) (hpayload : value.IsPayload) (hvalue : ReadsAs limit value)
    (hfuel : (written level value).length ≤ fuel) :
    (value.isSpellable limit = false →
      readFields limit (fuel + 1) done (fieldText level outer name value fields rest) =
        .error .integerTooLong) ∧
    (value.isSpellable limit = true → ∀ after,
      skipSpace (afterField level outer fields rest) = '\x7d' :: after →
      readFields limit (fuel + 1) done (fieldText level outer name value fields rest) =
        .ok (done ++ [(name, value)], after)) ∧
    (value.isSpellable limit = true → ∀ more,
      skipSpace (afterField level outer fields rest) = ',' :: more →
      readFields limit (fuel + 1) done (fieldText level outer name value fields rest) =
        readFields limit fuel (done ++ [(name, value)]) (skipSpace more)) := by
  have hcolon : isSpace ':' = false := by decide
  have hread := hvalue level fuel _ hfuel (ends_afterField level outer fields rest)
  have hblank := skipSpace_blank_written hpayload level (afterField level outer fields rest)
  obtain ⟨inner, hinner, hstring⟩ := readString_stringText name
    (':' :: ' ' :: (written level value ++ afterField level outer fields rest))
  rw [fieldText, hinner, readFields, hstring]
  simp only [skipSpace_cons hcolon, hblank, hread, CodePoint.map_shown_map_char,
    String.ofList_toList]
  refine ⟨fun hspell => ?_, fun hspell after hafter => ?_, fun hspell more hmore => ?_⟩
  · simp [hspell]
  · simp [hspell, hafter, Assoc.put_of_not_mem hname value]
  · simp [hspell, hmore, Assoc.put_of_not_mem hname value]

theorem readFields_written {limit : Nat} (level outer : Nat) (rest : List Char)
    {done fields : List (String × Data)} {name : String} {value : Data}
    (hnames : ((done ++ (name, value) :: fields).map Prod.fst).Nodup)
    (hpayload : ∀ field ∈ (name, value) :: fields, field.2.IsPayload)
    (hfields : ∀ field ∈ (name, value) :: fields, ReadsAs limit field.2) {fuel : Nat}
    (hfuel : (written level value).length + (writtenFields level fields).length < fuel) :
    readFields limit fuel done (fieldText level outer name value fields rest) =
      if Data.fieldsSpellable limit ((name, value) :: fields) then
        .ok (done ++ (name, value) :: fields, rest)
      else .error .integerTooLong := by
  induction fields generalizing done name value fuel with
  | nil =>
    obtain ⟨fuel, rfl⟩ := Nat.exists_eq_succ_of_ne_zero (Nat.ne_of_gt (Nat.zero_lt_of_lt hfuel))
    obtain ⟨hlong, hlast, -⟩ := @readFields_fieldText limit level outer fuel rest done [] name value
      (not_mem_of_nodup_append hnames) (hpayload _ List.mem_cons_self)
      (hfields _ List.mem_cons_self) (by omega)
    cases hspell : value.isSpellable limit with
    | false => simp [Data.fieldsSpellable, hspell, hlong hspell]
    | true =>
      rw [hlast hspell rest (skipSpace_newLine outer (by decide) rest)]
      simp [Data.fieldsSpellable, hspell]
  | cons next fields ih =>
    obtain ⟨fuel, rfl⟩ := Nat.exists_eq_succ_of_ne_zero (Nat.ne_of_gt (Nat.zero_lt_of_lt hfuel))
    obtain ⟨hlong, -, hmore⟩ := @readFields_fieldText limit level outer fuel rest done
      (next :: fields) name value (not_mem_of_nodup_append hnames) (hpayload _ List.mem_cons_self)
      (hfields _ List.mem_cons_self) (by omega)
    cases hspell : value.isSpellable limit with
    | false => simp [Data.fieldsSpellable, hspell, hlong hspell]
    | true =>
      have hlength : (writtenFields level (next :: fields)).length =
          1 + (newLine level).length + (stringText next.1).length + 2 +
            (written level next.2).length + (writtenFields level fields).length := by
        simp only [writtenFields, List.length_append, List.length_cons, List.cons_append,
          List.length_nil]
        omega
      have hafter := afterField_cons level outer next.1 next.2 fields rest
      have hnext := @ih (done ++ [(name, value)]) next.1 next.2 (by simpa using hnames)
        (fun field hfield => hpayload field (List.mem_cons_of_mem _ hfield))
        (fun field hfield => hfields field (List.mem_cons_of_mem _ hfield)) fuel (by omega)
      rw [hmore hspell _ ((congrArg skipSpace hafter).trans (skipSpace_cons (by decide) _)),
        skipSpace_newLine_fieldText, hnext]
      simp [Data.fieldsSpellable, hspell]

theorem readsAs_record {limit : Nat} {fields : List (String × Data)}
    (hnames : (fields.map Prod.fst).Nodup) (hpayload : ∀ field ∈ fields, field.2.IsPayload)
    (h : ∀ field ∈ fields, ReadsAs limit field.2) : ReadsAs limit (.record fields) := by
  refine .of_succ (.record hnames hpayload) fun level fuel rest hfuel _ => ?_
  cases fields with
  | nil => rfl
  | cons field fields =>
    have htext : written level (.record (field :: fields)) ++ rest = '\x7b' ::
        (newLine (level + 1) ++ fieldText (level + 1) level field.1 field.2 fields rest) := by
      simp [written, fieldText, afterField]
    have hlength : (written level (.record (field :: fields))).length =
        1 + (newLine (level + 1)).length + (stringText field.1).length + 2 +
          (written (level + 1) field.2).length + (writtenFields (level + 1) fields).length +
          (newLine level).length + 1 := by
      simp only [written, List.length_append, List.length_cons, List.cons_append, List.length_nil]
      omega
    have hfields := @readFields_written limit (level + 1) level rest [] fields field.1 field.2 hnames
      hpayload h fuel (by omega)
    rw [htext, readValue, skipSpace_newLine_fieldText]
    split
    · next heq => exact nomatch (List.cons.inj heq).1
    · rw [hfields]
      cases hspell : Data.fieldsSpellable limit (field :: fields) with
      | false => simp [Data.isSpellable, hspell]
      | true => simp [Data.isSpellable, hspell]

/-- Every payload is read back from its text. -/
theorem readsAs_of_isPayload {value : Data} (h : value.IsPayload) (limit : Nat) :
    ReadsAs limit value := by
  induction h with
  | null => exact readsAs_null limit
  | bool value => exact readsAs_bool limit value
  | int value => exact readsAs_int limit value
  | text value => exact readsAs_text limit value
  | unpaired value => exact readsAs_unpaired limit value
  | list hitems ih => exact readsAs_list hitems ih
  | record hnames hfields ih => exact readsAs_record hnames hfields ih

/-! ## Fields in order -/

theorem sortFieldsItems_eq_map (items : List Data) :
    sortFieldsItems items = items.map sortFields := by
  induction items with
  | nil => rfl
  | cons item items ih => rw [sortFieldsItems, ih, List.map_cons]

theorem sortFieldsFields_eq_map (fields : List (String × Data)) :
    sortFieldsFields fields = fields.map fun field => (field.1, sortFields field.2) := by
  induction fields with
  | nil => rfl
  | cons field fields ih => rw [sortFieldsFields, ih, List.map_cons]

/-- The fields of a record, each with its own fields in order, up to their order. -/
theorem exists_sortFields_record (fields : List (String × Data)) :
    ∃ sorted, sortFields (.record fields) = .record sorted ∧
      sorted.Perm (fields.map fun field => (field.1, sortFields field.2)) := by
  refine ⟨_, by rw [sortFields], ?_⟩
  rw [sortFieldsFields_eq_map]
  exact sortBy_perm _ _

theorem map_fst_perm_of_sorted {fields sorted : List (String × Data)}
    (h : sorted.Perm (fields.map fun field => (field.1, sortFields field.2))) :
    (sorted.map Prod.fst).Perm (fields.map Prod.fst) := by
  have hmap := h.map Prod.fst
  rwa [List.map_map] at hmap

theorem isPayload_sortFields {value : Data} (h : value.IsPayload) :
    (sortFields value).IsPayload := by
  induction h with
  | null => exact .null
  | bool value => exact .bool value
  | int value => exact .int value
  | text value => exact .text value
  | unpaired value => exact .unpaired value
  | list _ ih =>
    rw [sortFields, sortFieldsItems_eq_map]
    exact .list (List.forall_mem_map.2 ih)
  | @record fields hnames _ ih =>
    obtain ⟨sorted, heq, hperm⟩ := exists_sortFields_record fields
    rw [heq]
    refine .record ((map_fst_perm_of_sorted hperm).nodup_iff.2 hnames) fun field hfield => ?_
    obtain ⟨old, hold, rfl⟩ := List.mem_map.1 (hperm.mem_iff.1 hfield)
    exact ih old hold

theorem isSpellable_sortFields {value : Data} (h : value.IsPayload) (limit : Nat) :
    (sortFields value).isSpellable limit = value.isSpellable limit := by
  induction h with
  | null => rfl
  | bool value => rfl
  | int value => rfl
  | text value => rfl
  | unpaired value => rfl
  | list _ ih =>
    rw [sortFields, sortFieldsItems_eq_map, Data.isSpellable, Data.isSpellable, Bool.eq_iff_iff,
      Data.areSpellable_iff, Data.areSpellable_iff, List.forall_mem_map]
    exact forall₂_congr fun item hitem => by rw [ih item hitem]
  | @record fields _ _ ih =>
    obtain ⟨sorted, heq, hperm⟩ := exists_sortFields_record fields
    rw [heq, Data.isSpellable, Data.isSpellable, Bool.eq_iff_iff, Data.fieldsSpellable_iff,
      Data.fieldsSpellable_iff]
    simp only [hperm.mem_iff, List.forall_mem_map]
    exact forall₂_congr fun field hfield => by rw [ih field hfield]

/-! ## Texts -/

theorem eq_of_isSpace {c : Char} (h : isSpace c = true) : c = ' ' ∨ c = '\n' ∨ c = '\r' ∨ c = '\t' := by
  simpa [isSpace, or_assoc] using h

theorem ends_of_isSpace {blanks : List Char} (h : ∀ c ∈ blanks, isSpace c = true) : Ends blanks := by
  cases blanks with
  | nil => exact ends_nil
  | cons c blanks =>
    refine ends_cons ?_ blanks
    rcases eq_of_isSpace (h c List.mem_cons_self) with rfl | rfl | rfl | rfl
    · decide
    · decide
    · decide
    · decide

theorem isAscii_of_isSpace {blanks : List Char} (h : ∀ c ∈ blanks, isSpace c = true) :
    IsAscii blanks := by
  intro c hc
  rcases eq_of_isSpace (h c hc) with rfl | rfl | rfl | rfl
  · decide
  · decide
  · decide
  · decide

/-- The text of a payload, with blanks after it or not, is read as the payload. -/
theorem parse_render {value : Data} (h : value.IsPayload) (limit : Nat) (blanks : String)
    (hblanks : ∀ c ∈ blanks.toList, isSpace c = true) :
    parse limit (render value ++ blanks) =
      if value.isSpellable limit then .ok (sortFields value) else .error .integerTooLong := by
  have hsorted := isPayload_sortFields h
  have htext : (render value ++ blanks).toList = written 0 (sortFields value) ++ blanks.toList := by
    rw [render, String.toList_append, String.toList_ofList]
  have hstart : skipSpace (written 0 (sortFields value) ++ blanks.toList) =
      written 0 (sortFields value) ++ blanks.toList := by
    obtain ⟨c, text, hc, hspace, -⟩ := exists_cons_written hsorted 0
    rw [hc, List.cons_append, skipSpace_cons hspace]
  have hend : skipSpace blanks.toList = [] := by
    simpa [skipSpace] using skipSpace_append hblanks []
  have hread := readsAs_of_isPayload hsorted limit 0
    ((written 0 (sortFields value) ++ blanks.toList).length + 1) blanks.toList
    (by rw [List.length_append]; omega) (ends_of_isSpace hblanks)
  rw [parse, htext, hstart, hread, isSpellable_sortFields h]
  cases value.isSpellable limit with
  | false => rfl
  | true => simp [hend]

@[simp] theorem isAscii_newLine (level : Nat) : IsAscii (newLine level) := by
  refine isAscii_cons.2 ⟨by decide, fun c hc => ?_⟩
  rw [List.eq_of_mem_replicate hc]
  decide

theorem isAscii_int (value : Int) : IsAscii (toString value).toList := by
  have hdigits : IsAscii (Nat.toDigits 10 value.natAbs) := by
    intro c hc
    have hdigit := isDigit_toDigits hc
    simp only [Char.isDigit, Bool.and_eq_true, decide_eq_true_eq] at hdigit
    have hle : c.toNat ≤ 57 := hdigit.2
    omega
  rw [toList_toString_int]
  split
  · simp [hdigits]
  · exact hdigits

theorem isAscii_writtenItems {items : List Data}
    (h : ∀ item ∈ items, ∀ level, IsAscii (written level item)) (level : Nat) :
    IsAscii (writtenItems level items) := by
  induction items with
  | nil => exact isAscii_nil
  | cons item items ih =>
    have hitem := h item List.mem_cons_self level
    have hitems := ih fun other hother => h other (List.mem_cons_of_mem item hother)
    simp [writtenItems, hitem, hitems]

theorem isAscii_writtenFields {fields : List (String × Data)}
    (h : ∀ field ∈ fields, ∀ level, IsAscii (written level field.2)) (level : Nat) :
    IsAscii (writtenFields level fields) := by
  induction fields with
  | nil => exact isAscii_nil
  | cons field fields ih =>
    have hfield := h field List.mem_cons_self level
    have hfields := ih fun other hother => h other (List.mem_cons_of_mem field hother)
    simp [writtenFields, hfield, hfields]

theorem isAscii_written {value : Data} (h : value.IsPayload) (level : Nat) :
    IsAscii (written level value) := by
  induction h generalizing level with
  | null => simp [written]
  | bool value => cases value <;> simp [written]
  | int value => exact isAscii_int value
  | text value => exact isAscii_stringText value
  | unpaired value => exact isAscii_pointsText value.points
  | @list items _ ih =>
    cases items with
    | nil => simp [written]
    | cons item items =>
      have hitem := ih item List.mem_cons_self (level + 1)
      have hitems := isAscii_writtenItems
        (fun other hother => ih other (List.mem_cons_of_mem item hother)) (level + 1)
      simp [written, hitem, hitems]
  | @record fields _ _ ih =>
    cases fields with
    | nil => simp [written]
    | cons field fields =>
      have hfield := ih field List.mem_cons_self (level + 1)
      have hfields := isAscii_writtenFields
        (fun other hother => ih other (List.mem_cons_of_mem field hother)) (level + 1)
      simp [written, hfield, hfields]

end Json

end ComponentLint
