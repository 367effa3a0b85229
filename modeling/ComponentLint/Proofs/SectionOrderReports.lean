import ComponentLint.Proofs.Violations
import Mathlib.Data.List.ReduceOption
/-
  The order of sections is checked exactly. The check goes through the declarations of both
  containers at once and keeps the latest section of each. One step reports a declaration if it
  stands behind a later section of its container, and then the section that is kept is still the
  latest of all so far (`outOfSection_step`). So a run gives each declaration one report or none
  (`outOfSection_run`), and these are all violations of section order (`filter_sectionOrder_perm`).
-/

namespace ComponentLint

open Validation

/-- The sections that the declarations of a container have, in order. -/
def sectionsIn (scope : Scope) (ds : List Classified) : List Section :=
  (inScope scope ds).filterMap (·.section?)

/-- The section is among the given ones, and none of them comes later. -/
structure IsLatest (order : SectionOrder) (places : List Section) (latest : Section) : Prop where
  mem : latest ∈ places
  le : ∀ place ∈ places, order.position place ≤ order.position latest

/-- A declaration before this one, in the same container, has a later section. -/
def StandsBehind (order : SectionOrder) (earlier : List Classified) (d : Classified) : Prop :=
  ∃ place later, d.section? = some place ∧ later ∈ sectionsIn d.scope earlier ∧
    order.position place < order.position later

/-! ## One step of the check -/

/-- What is kept for a container: the latest of its sections, if it has any. -/
inductive LatestKept (order : SectionOrder) (places : List Section) : Option Section → Prop where
  | empty (h : places = []) : LatestKept order places none
  | found (latest : Section) (h : IsLatest order places latest) : LatestKept order places (some latest)

/-- What is kept for both containers after some declarations. -/
def Tracks (order : SectionOrder) (seen : List Classified) (latest : Scope → Option Section) : Prop :=
  ∀ scope, LatestKept order (sectionsIn scope seen) (latest scope)

/-- What is said of a declaration behind others, in the words of `told`. -/
inductive SectionReport (order : SectionOrder) (told : Classified → Section → Violation)
    (earlier : List Classified) (d : Classified) : Option Violation → Prop where
  | fits (h : ¬ StandsBehind order earlier d) : SectionReport order told earlier d none
  | behind (latest : Section) (h : StandsBehind order earlier d)
    (hl : IsLatest order (sectionsIn d.scope earlier) latest) :
    SectionReport order told earlier d (some (told d latest))

/-- One report or none for each declaration, behind those before it. -/
inductive SectionReports (order : SectionOrder) (told : Classified → Section → Violation) :
    List Classified → List Classified → List (Option Violation) → Prop where
  | nil (seen : List Classified) : SectionReports order told seen [] []
  | cons {seen ds : List Classified} {d : Classified} {report : Option Violation}
    {reports : List (Option Violation)} (h : SectionReport order told seen d report)
    (hrest : SectionReports order told (seen ++ [d]) ds reports) :
    SectionReports order told seen (d :: ds) (report :: reports)

theorem mem_sectionsIn {scope : Scope} {ds : List Classified} {place : Section} :
    place ∈ sectionsIn scope ds ↔ ∃ e ∈ ds, e.scope = scope ∧ e.section? = some place := by
  unfold sectionsIn inScope
  simp only [List.mem_filterMap, List.mem_filter, beq_iff_eq, and_assoc]

section

variable {order : SectionOrder} {seen : List Classified} {latest : Scope → Option Section}
  {d : Classified} {place last : Section}

theorem sectionsIn_concat (scope : Scope) (hs : d.section? = some place) :
    sectionsIn scope (seen ++ [d]) =
      if scope = d.scope then sectionsIn scope seen ++ [place] else sectionsIn scope seen := by
  unfold sectionsIn
  rw [inScope_append, List.filterMap_append]
  split
  · next h =>
    have hself : inScope scope [d] = [d] := inScope_eq_self (by simp [h])
    rw [hself, List.filterMap_cons_some hs, List.filterMap_nil]
  · next h =>
    have hnil : inScope scope [d] = [] := inScope_eq_nil (Ne.symm h) (by simp)
    rw [hnil, List.filterMap_nil, List.append_nil]

theorem sectionsIn_concat_of_none (scope : Scope) (hs : d.section? = none) :
    sectionsIn scope (seen ++ [d]) = sectionsIn scope seen := by
  have hnone : (inScope scope [d]).filterMap (·.section?) = [] :=
    List.filterMap_eq_nil_iff.2 fun e he => by
      rw [List.mem_singleton.1 ((inScope_sublist scope [d]).subset he), hs]
  unfold sectionsIn
  rw [inScope_append, List.filterMap_append, hnone, List.append_nil]

theorem LatestKept.le {places : List Section} {kept : Option Section}
    (h : LatestKept order places kept)
    (hle : ∀ last ∈ kept, order.position last ≤ order.position place) :
    ∀ s ∈ places, order.position s ≤ order.position place := by
  cases h with
  | empty hnil =>
    rw [hnil]
    exact List.forall_mem_nil _
  | found last hlast => exact fun s hs => Nat.le_trans (hlast.le s hs) (hle last rfl)

theorem LatestKept.isLatest {places : List Section} (h : LatestKept order places (some last)) :
    IsLatest order places last := by
  cases h with
  | found _ hlast => exact hlast

theorem tracks_nil (order : SectionOrder) : Tracks order [] fun _ => none :=
  fun _ => .empty rfl

/-- A declaration whose section is no earlier than what is kept makes it the latest. -/
theorem Tracks.advance (h : Tracks order seen latest) (hs : d.section? = some place)
    (hle : ∀ last ∈ latest d.scope, order.position last ≤ order.position place) :
    Tracks order (seen ++ [d]) fun scope => if scope = d.scope then some place else latest scope := by
  intro scope
  dsimp only
  rw [sectionsIn_concat scope hs]
  split
  · next hscope =>
    subst hscope
    refine .found place ⟨by simp, fun s hmem => ?_⟩
    rcases List.mem_append.1 hmem with hmem | hmem
    · exact (h d.scope).le hle s hmem
    · rw [List.mem_singleton.1 hmem]
  · exact h scope

/-- A declaration behind what is kept leaves it as it is. -/
theorem Tracks.keep (h : Tracks order seen latest) (hs : d.section? = some place)
    (hl : latest d.scope = some last) (hlt : order.position place < order.position last) :
    Tracks order (seen ++ [d]) latest := by
  intro scope
  rw [sectionsIn_concat scope hs]
  split
  · next hscope =>
    subst hscope
    have hlast := (hl ▸ h d.scope).isLatest
    rw [hl]
    refine .found last ⟨List.mem_append_left _ hlast.mem, fun s hmem => ?_⟩
    rcases List.mem_append.1 hmem with hmem | hmem
    · exact hlast.le s hmem
    · rw [List.mem_singleton.1 hmem]
      exact Nat.le_of_lt hlt
  · exact h scope

/-- One step of the check: what it says of the first declaration, and what it keeps for the rest. -/
theorem outOfSection_step (told : Classified → Section → Violation) (h : Tracks order seen latest)
    (d : Classified) (ds : List Classified) :
    ∃ report latest', SectionReport order told seen d report ∧ Tracks order (seen ++ [d]) latest' ∧
      (Rule.outOfSection order latest (d :: ds)).map (fun e => told e.1 e.2) =
        report.toList ++ (Rule.outOfSection order latest' ds).map fun e => told e.1 e.2 := by
  rw [Rule.outOfSection]
  cases hs : d.section? with
  | none =>
    refine ⟨none, latest, .fits ?_, fun scope => ?_, rfl⟩
    · rintro ⟨place, later, hplace, -⟩
      exact absurd (hs.symm.trans hplace) (Option.some_ne_none place).symm
    · rw [sectionsIn_concat_of_none scope hs]
      exact h scope
  | some place =>
    have hfits : (∀ last ∈ latest d.scope, order.position last ≤ order.position place) →
        ¬ StandsBehind order seen d := by
      rintro hle ⟨place', later, hplace, hlater, hlt⟩
      obtain rfl := Option.some.inj (hs.symm.trans hplace)
      exact Nat.not_le_of_lt hlt ((h d.scope).le hle later hlater)
    cases hl : latest d.scope with
    | none =>
      have hle : ∀ last ∈ latest d.scope, order.position last ≤ order.position place := by
        simp [hl]
      exact ⟨none, _, .fits (hfits hle), h.advance hs hle, rfl⟩
    | some last =>
      dsimp only
      by_cases hlt : order.position place < order.position last
      · have hlast := (hl ▸ h d.scope).isLatest
        have hbehind : StandsBehind order seen d := ⟨place, last, hs, hlast.mem, hlt⟩
        refine ⟨some (told d last), latest, .behind last hbehind hlast, h.keep hs hl hlt, ?_⟩
        rw [if_pos hlt]
        rfl
      · have hle : ∀ last ∈ latest d.scope, order.position last ≤ order.position place := by
          simpa [hl] using hlt
        refine ⟨none, _, .fits (hfits hle), h.advance hs hle, ?_⟩
        rw [if_neg hlt]
        rfl

theorem reduceOption_cons {α : Type} (o : Option α) (l : List (Option α)) :
    (o :: l).reduceOption = o.toList ++ l.reduceOption := by
  cases o with
  | none => exact List.reduceOption_cons_of_none l
  | some a => exact List.reduceOption_cons_of_some a l

/-- A run of the check: one report or none for each declaration, in their order. -/
theorem outOfSection_run (told : Classified → Section → Violation) (h : Tracks order seen latest)
    (ds : List Classified) :
    ∃ reports, SectionReports order told seen ds reports ∧
      (Rule.outOfSection order latest ds).map (fun e => told e.1 e.2) = reports.reduceOption := by
  induction ds generalizing seen latest with
  | nil => exact ⟨[], .nil seen, rfl⟩
  | cons d ds ih =>
    obtain ⟨report, latest', hreport, htracks, heq⟩ := outOfSection_step told h d ds
    obtain ⟨reports, hrest, hreports⟩ := ih htracks
    exact ⟨report :: reports, .cons hreport hrest, by rw [heq, hreports, reduceOption_cons]⟩

end

/-! ## The reports of a run -/

section

variable {order : SectionOrder} {told : Classified → Section → Violation}
  {earlier : List Classified} {d : Classified} {report : Option Violation}

theorem SectionReport.eq_none_iff (h : SectionReport order told earlier d report) :
    report = none ↔ ¬ StandsBehind order earlier d := by
  cases h with
  | fits h => exact iff_of_true rfl h
  | behind latest h => exact iff_of_false (Option.some_ne_none _) (not_not_intro h)

theorem SectionReport.exists_isLatest {v : Violation}
    (h : SectionReport order told earlier d (some v)) :
    ∃ latest, IsLatest order (sectionsIn d.scope earlier) latest ∧ v = told d latest := by
  cases h with
  | behind latest _ hl => exact ⟨latest, hl, rfl⟩

theorem SectionReport.filter_actual (htold : ∀ d latest, (told d latest).actual = d.index)
    (h : SectionReport order told earlier d report) (i : Nat) :
    report.toList.filter (·.actual == i) = if d.index = i then report.toList else [] := by
  cases h with
  | fits => simp
  | behind latest => simp [List.filter_cons, htold]

end

namespace SectionReports

variable {order : SectionOrder} {told : Classified → Section → Violation}
  {seen ds : List Classified} {reports : List (Option Violation)}

theorem length_eq (h : SectionReports order told seen ds reports) : reports.length = ds.length := by
  induction h with
  | nil => rfl
  | cons _ _ ih => rw [List.length_cons, List.length_cons, ih]

theorem exists_report (h : SectionReports order told seen ds reports) {n : Nat} {d : Classified}
    (hd : ds[n]? = some d) :
    ∃ report, reports[n]? = some report ∧ SectionReport order told (seen ++ ds.take n) d report := by
  induction h generalizing n with
  | nil => exact absurd hd.symm (Option.some_ne_none d)
  | @cons seen ds e report reports hreport hrest ih =>
    cases n with
    | zero =>
      obtain rfl := Option.some.inj hd
      exact ⟨report, rfl, by simpa using hreport⟩
    | succ n =>
      obtain ⟨r, hr, hsaid⟩ := ih hd
      exact ⟨r, hr, by simpa using hsaid⟩

/-- What is said of declarations that all have other numbers. -/
theorem filter_actual_eq_nil (htold : ∀ d latest, (told d latest).actual = d.index) {i : Nat}
    (h : SectionReports order told seen ds reports) (hi : i ∉ ds.map (·.index)) :
    reports.reduceOption.filter (·.actual == i) = [] := by
  induction h with
  | nil => rfl
  | cons hreport _ ih =>
    obtain ⟨hne, hi⟩ := not_or.1 (mt List.mem_cons.2 hi)
    rw [reduceOption_cons, List.filter_append, hreport.filter_actual htold, if_neg (Ne.symm hne),
      ih hi, List.append_nil]

/-- If no two declarations have one number, what is said with the number of one is its report. -/
theorem filter_actual (htold : ∀ d latest, (told d latest).actual = d.index) {n : Nat}
    {d : Classified} {report : Option Violation} (h : SectionReports order told seen ds reports)
    (hn : Numbered ds) (hd : ds[n]? = some d) (hr : reports[n]? = some report) :
    reports.reduceOption.filter (·.actual == d.index) = report.toList := by
  induction h generalizing n with
  | nil => exact absurd hd.symm (Option.some_ne_none d)
  | @cons seen ds e first reports hfirst hrest ih =>
    obtain ⟨hnew, hn⟩ := List.nodup_cons.1 hn
    rw [reduceOption_cons, List.filter_append, hfirst.filter_actual htold]
    cases n with
    | zero =>
      obtain rfl := Option.some.inj hd
      obtain rfl := Option.some.inj hr
      rw [if_pos rfl, hrest.filter_actual_eq_nil htold hnew, List.append_nil]
    | succ n =>
      have hmem : d.index ∈ ds.map (·.index) := List.mem_map_of_mem (List.mem_of_getElem? hd)
      rw [if_neg (ne_of_mem_of_not_mem hmem hnew).symm, ih hn hd hr, List.nil_append]

end SectionReports

/-- No declaration of a container stands behind a later section exactly if its sections ascend. -/
theorem forall_not_standsBehind_iff (order : SectionOrder) (scope : Scope) (ds : List Classified) :
    (∀ n d, ds[n]? = some d → d.scope = scope → ¬ StandsBehind order (ds.take n) d) ↔
      (sectionsIn scope ds).Pairwise fun a b => order.position a ≤ order.position b := by
  unfold sectionsIn inScope
  rw [List.pairwise_filterMap, List.pairwise_filter, List.pairwise_iff_getElem]
  constructor
  · intro h i j hi hj hij hfirst hsecond earlier hearlier place hplace
    by_contra hlt
    have hsame := (beq_iff_eq.1 hfirst).trans (beq_iff_eq.1 hsecond).symm
    have hmem : ds[i] ∈ ds.take j := List.mem_take_iff_getElem.2 ⟨i, by omega, rfl⟩
    exact h j ds[j] (List.getElem?_eq_getElem hj) (beq_iff_eq.1 hsecond) ⟨place, earlier, hplace,
      mem_sectionsIn.2 ⟨ds[i], hmem, hsame, hearlier⟩, Nat.lt_of_not_le hlt⟩
  · rintro h n d hd hscope ⟨place, later, hplace, hlater, hlt⟩
    obtain ⟨e, he, hsame, hesection⟩ := mem_sectionsIn.1 hlater
    obtain ⟨i, hi, rfl⟩ := List.mem_take_iff_getElem.1 he
    obtain ⟨hn, rfl⟩ := List.getElem?_eq_some_iff.1 hd
    have hle := h i n (by omega) hn (by omega) (beq_iff_eq.2 (hsame.trans hscope))
      (beq_iff_eq.2 hscope) later hesection place hplace
    exact Nat.not_le_of_lt hlt hle

/-! ## The violations of section order -/

/-- The violations of section order are those of the check, in some order. -/
theorem filter_sectionOrder_perm (options : Options) (ds : List Classified) :
    ((validate options ds).violations.filter (·.kind == .sectionOrder)).Perm
      ((Rule.outOfSection options.order (fun _ => none) ds).map fun e =>
        violation e.1 (.afterSection e.2) (positionIn (validate options ds).arranged e.1)) := by
  refine (filter_kind_violations_perm .sectionOrder options ds).trans (.of_eq ?_)
  exact List.append_nil _

/-- What a check says of the order of sections: one report or none for each declaration. -/
structure SectionOrderReports (options : Options) (ds : List Classified)
    (reports : List (Option Violation)) : Prop where
  length_eq : reports.length = ds.length
  /-- The reports are all violations of section order. -/
  all : ((validate options ds).violations.filter (·.kind == .sectionOrder)).Perm reports.reduceOption
  /-- A declaration is reported if it stands behind a later section of its container. -/
  reported : ∀ (n : Nat) (d : Classified), ds[n]? = some d →
    ((∃ v, reports[n]? = some (some v)) ↔ StandsBehind options.order (ds.take n) d)
  /-- The report is of the declaration and of the latest section of its container before it. -/
  related : ∀ (n : Nat) (d : Classified) (v : Violation), ds[n]? = some d →
    reports[n]? = some (some v) →
    ∃ latest, IsLatest options.order (sectionsIn d.scope (ds.take n)) latest ∧
      v.related = [latest.id] ∧
      v = violation d (.afterSection latest) (positionIn (validate options ds).arranged d)
  /-- No other violation of section order has the number of the declaration. -/
  own : Numbered ds → ∀ (n : Nat) (d : Classified), ds[n]? = some d →
    (validate options ds).violations.filter
      (fun v => v.actual == d.index && v.kind == .sectionOrder) = (reports[n]?.join).toList
  /-- No declaration of a container is reported if its sections ascend. -/
  container : ∀ scope, (∀ (n : Nat) (d : Classified), ds[n]? = some d → d.scope = scope →
      reports[n]? = some none) ↔
    (sectionsIn scope ds).Pairwise fun a b => options.order.position a ≤ options.order.position b

/-- The order of sections is checked exactly: a declaration is reported if and only if it stands
behind a later section of its container. It is reported once, with the latest section before it. -/
theorem section_order_exact (options : Options) (ds : List Classified) :
    ∃ reports, SectionOrderReports options ds reports := by
  obtain ⟨reports, hreports, heq⟩ := outOfSection_run
    (fun d latest => violation d (.afterSection latest)
      (positionIn (validate options ds).arranged d)) (tracks_nil options.order) ds
  have hall := filter_sectionOrder_perm options ds
  rw [heq] at hall
  refine ⟨reports, hreports.length_eq, hall, fun n d hd => ?_, fun n d v hd hv => ?_,
    fun hn n d hd => ?_, fun scope => ?_⟩
  · obtain ⟨report, hr, hsaid⟩ := hreports.exists_report hd
    refine not_iff_not.1 (Iff.trans ?_ hsaid.eq_none_iff)
    simp [hr, Option.eq_none_iff_forall_ne_some]
  · obtain ⟨report, hr, hsaid⟩ := hreports.exists_report hd
    obtain rfl := Option.some.inj (hr.symm.trans hv)
    obtain ⟨latest, hlatest, rfl⟩ := hsaid.exists_isLatest
    exact ⟨latest, hlatest, rfl, rfl⟩
  · obtain ⟨report, hr, -⟩ := hreports.exists_report hd
    have hown := hreports.filter_actual (fun _ _ => rfl) hn hd hr
    have hperm := hall.filter (·.actual == d.index)
    rw [hown] at hperm
    rw [← List.filter_filter, hr]
    cases report with
    | none => exact hperm.eq_nil
    | some v => exact List.perm_singleton.1 hperm
  · rw [← forall_not_standsBehind_iff]
    refine forall₃_congr fun n d hd => ?_
    obtain ⟨report, hr, hsaid⟩ := hreports.exists_report hd
    rw [hr, Option.some_inj, hsaid.eq_none_iff, List.nil_append]

end ComponentLint
