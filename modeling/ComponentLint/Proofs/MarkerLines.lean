import ComponentLint.Section.Marker
import Mathlib.Data.List.Basic
import Mathlib.Data.List.TakeWhile
/-
  What the delimiters of a comment do to its markers. The scan for them runs over the whole comment:
  a delimiter at the head of a line may take blank lines with it, and competes with slashes and
  stars for the same characters. Said without a scan (`cuts`), a comment is cut at its line breaks
  and between a slash and a star that stand side by side. Both ways give the same lines, but for
  lines without words (`keys_undelimitedAfter`). A cut depends on two neighbours only, so a line
  feed keeps what is before it apart from what is behind it, and the last marker of a comment is
  that of its last part which has one (`last_marker_wins`).
-/

namespace ComponentLint.Marker

/-! ## Words and what separates them -/

/-- The parts between spaces that are not empty. -/
def pieces (cs : List Char) : List (List Char) :=
  (Text.splitAt ' ' cs).filter (!·.isEmpty)

theorem splitAt_ne_nil (sep : Char) (cs : List Char) : Text.splitAt sep cs ≠ [] := by
  cases cs with
  | nil => exact List.cons_ne_nil _ _
  | cons c cs =>
    unfold Text.splitAt
    split
    · exact List.cons_ne_nil _ _
    · split
      · exact List.cons_ne_nil _ _
      · exact List.cons_ne_nil _ _

theorem splitAt_append (sep : Char) (a b : List Char) :
    Text.splitAt sep (a ++ sep :: b) = Text.splitAt sep a ++ Text.splitAt sep b := by
  induction a with
  | nil => simp [Text.splitAt]
  | cons c a ih =>
    rw [List.cons_append, Text.splitAt, Text.splitAt, ih]
    split
    · rfl
    · obtain ⟨part, parts, hparts⟩ := List.exists_cons_of_ne_nil (splitAt_ne_nil sep a)
      rw [hparts]
      rfl

theorem pieces_append (a b : List Char) : pieces (a ++ ' ' :: b) = pieces a ++ pieces b := by
  unfold pieces
  rw [splitAt_append, List.filter_append]

theorem pieces_spaces_append {spaces : List Char} (h : ∀ c ∈ spaces, c = ' ') (cs : List Char) :
    pieces (spaces ++ cs) = pieces cs := by
  induction spaces with
  | nil => rfl
  | cons c spaces ih =>
    obtain ⟨rfl, hrest⟩ := List.forall_mem_cons.1 h
    exact (pieces_append [] _).trans (ih hrest)

theorem pieces_append_spaces {spaces : List Char} (h : ∀ c ∈ spaces, c = ' ') (cs : List Char) :
    pieces (cs ++ spaces) = pieces cs := by
  induction spaces with
  | nil => rw [List.append_nil]
  | cons c spaces ih =>
    obtain ⟨rfl, hrest⟩ := List.forall_mem_cons.1 h
    have hnone : pieces spaces = [] := by
      have := pieces_spaces_append hrest []
      rwa [List.append_nil] at this
    rw [pieces_append, hnone, List.append_nil]

theorem words_eq (line : List Char) : words line = (pieces (spaced line)).map String.ofList :=
  rfl

theorem spaced_append (a b : List Char) : spaced (a ++ b) = spaced a ++ spaced b := by
  simp only [spaced, List.flatMap_append]

/-- No character of the text is in a word. -/
def Wordless (cs : List Char) : Prop :=
  ∀ c ∈ cs, ∀ d ∈ spaced [c], d = ' '

theorem Wordless.spaced {cs : List Char} (h : Wordless cs) : ∀ d ∈ spaced cs, d = ' ' := by
  induction cs with
  | nil => exact fun d hd => absurd hd List.not_mem_nil
  | cons c cs ih =>
    obtain ⟨hc, hrest⟩ := List.forall_mem_cons.1 h
    rw [← List.singleton_append, spaced_append]
    exact List.forall_mem_append.2 ⟨hc, ih hrest⟩

theorem wordless_nil : Wordless [] :=
  List.forall_mem_nil _

theorem wordless_append {a b : List Char} : Wordless (a ++ b) ↔ Wordless a ∧ Wordless b :=
  List.forall_mem_append

theorem wordless_cons {c : Char} {cs : List Char} :
    Wordless (c :: cs) ↔ Wordless [c] ∧ Wordless cs :=
  wordless_append (a := [c])

theorem words_append_left {cs : List Char} (h : Wordless cs) (line : List Char) :
    words (cs ++ line) = words line := by
  rw [words_eq, spaced_append, pieces_spaces_append h.spaced, words_eq]

theorem words_append_right {cs : List Char} (h : Wordless cs) (line : List Char) :
    words (line ++ cs) = words line := by
  rw [words_eq, spaced_append, pieces_append_spaces h.spaced, words_eq]

/-- The code points of the blanks. -/
def blankCodes : List Nat :=
  List.range' 0x09 5 ++ List.range' 0x1C 5 ++ [0x85, 0xA0, 0x1680] ++ List.range' 0x2000 11 ++
    [0x2028, 0x2029, 0x202F, 0x205F, 0x3000]

theorem toNat_mem_blankCodes {c : Char} (h : Text.isBlank c = true) : c.toNat ∈ blankCodes := by
  simp only [Text.isBlank, Bool.or_eq_true, Bool.and_eq_true, decide_eq_true_eq, beq_iff_eq] at h
  simp only [blankCodes, List.mem_append, List.mem_range'_1, List.mem_cons, List.not_mem_nil,
    or_false]
  omega

theorem wordless_of_forall_isBlank {cs : List Char} (h : ∀ c ∈ cs, Text.isBlank c = true) :
    Wordless cs := by
  have hcodes : (blankCodes.all fun n => (spaced [Char.ofNat n]).all (· == ' ')) = true := by
    decide +kernel
  simp only [List.all_eq_true, beq_iff_eq] at hcodes
  intro c hc
  have hfound := hcodes c.toNat (toNat_mem_blankCodes (h c hc))
  rwa [Char.ofNat_toNat] at hfound

/-- The characters of delimiters, blanks apart. -/
def delimiterChars : List Char := ['/', '*', '#']

theorem wordless_of_subset {cs : List Char} (h : ∀ c ∈ cs, c ∈ delimiterChars) : Wordless cs := by
  have hchars : (delimiterChars.all fun c => (spaced [c]).all (· == ' ')) = true := by
    decide +kernel
  simp only [List.all_eq_true, beq_iff_eq] at hchars
  exact fun c hc => hchars c (h c hc)

/-! ## Lines up to those without words -/

/-- The words of each line that has some. -/
def keys (ls : List (List Char)) : List (List String) :=
  (ls.map words).filter (!·.isEmpty)

/-- Puts a text in front of the first line. -/
def onFirst (text : List Char) : List (List Char) → List (List Char)
  | [] => [text]
  | line :: ls => (text ++ line) :: ls

theorem onFirst_consFirst (text : List Char) (c : Char) (ls : List (List Char)) :
    onFirst text (consFirst c ls) = onFirst (text ++ [c]) ls := by
  cases ls with
  | nil => rfl
  | cons line ls => simp [onFirst, consFirst]

theorem consFirst_eq_onFirst (c : Char) (ls : List (List Char)) :
    consFirst c ls = onFirst [c] ls := by
  cases ls with
  | nil => rfl
  | cons line ls => rfl

theorem keys_cons (line : List Char) (ls : List (List Char)) :
    keys (line :: ls) = keys [line] ++ keys ls := by
  unfold keys
  rw [← List.singleton_append, List.map_append, List.filter_append]

theorem keys_singleton_of_wordless {line : List Char} (h : Wordless line) : keys [line] = [] := by
  have hwords : words line = [] := by
    have := words_append_right h []
    rwa [List.nil_append] at this
  simp [keys, hwords]

theorem keys_singleton_append {cs : List Char} (h : Wordless cs) (line : List Char) :
    keys [line ++ cs] = keys [line] := by
  simp [keys, words_append_right h]

theorem keys_onFirst_of_wordless {text : List Char} (h : Wordless text) (ls : List (List Char)) :
    keys (onFirst text ls) = keys ls := by
  cases ls with
  | nil => exact keys_singleton_of_wordless h
  | cons line ls => simp [keys, onFirst, words_append_left h]

theorem filterMap_ofWords? (ls : List (List Char)) :
    (ls.filterMap fun line => ofWords? (words line)) = (keys ls).filterMap ofWords? := by
  have hskip : (fun ws : List String => if (!ws.isEmpty) = true then ofWords? ws else none) =
      ofWords? := by
    funext ws
    cases ws with
    | nil => decide
    | cons word ws => rfl
  rw [keys, List.filterMap_filter, hskip, List.filterMap_map]
  rfl

/-! ## Cuts -/

/-- A slash beside a star. -/
def isCut (a b : Char) : Bool :=
  (a == '/' && b == '*') || (a == '*' && b == '/')

/-- The lines of a comment, cut at each line break and between a slash and a star. The slashes and
stars stay, as they belong to no word. -/
def cuts : List Char → List (List Char)
  | [] => [[]]
  | c :: cs =>
    if Text.isLineBreak c then [] :: cuts cs
    else if cs.head?.any (isCut c) then [c] :: cuts cs
    else consFirst c (cuts cs)

theorem cuts_ne_nil (cs : List Char) : cuts cs ≠ [] := by
  cases cs with
  | nil => exact List.cons_ne_nil _ _
  | cons c cs =>
    unfold cuts
    split
    · exact List.cons_ne_nil _ _
    · split
      · exact List.cons_ne_nil _ _
      · cases cuts cs with
        | nil => exact List.cons_ne_nil _ _
        | cons line ls => exact List.cons_ne_nil _ _

/-- A line feed keeps what is before it apart from what is behind it. -/
theorem cuts_append (a b : List Char) : cuts (a ++ '\n' :: b) = cuts a ++ cuts b := by
  have hbreak : ∀ c, isCut c '\n' = false := by simp [isCut]
  induction a with
  | nil => rfl
  | cons c a ih =>
    have hhead : (a ++ '\n' :: b).head?.any (isCut c) = a.head?.any (isCut c) := by
      cases a with
      | nil => exact hbreak c
      | cons d a => rfl
    rw [List.cons_append, cuts, cuts, hhead, ih]
    split
    · rfl
    · split
      · rfl
      · obtain ⟨line, ls, hcuts⟩ := List.exists_cons_of_ne_nil (cuts_ne_nil a)
        rw [hcuts]
        rfl

theorem keys_cuts_cons {c : Char} (hc : Wordless [c]) (cs : List Char) :
    keys (cuts (c :: cs)) = keys (cuts cs) := by
  rw [cuts]
  split
  · rw [keys_cons, keys_singleton_of_wordless wordless_nil, List.nil_append]
  · split
    · rw [keys_cons, keys_singleton_of_wordless hc, List.nil_append]
    · rw [consFirst_eq_onFirst, keys_onFirst_of_wordless hc]

theorem keys_cuts_append {text : List Char} (h : Wordless text) (cs : List Char) :
    keys (cuts (text ++ cs)) = keys (cuts cs) := by
  induction text with
  | nil => rfl
  | cons c text ih =>
    obtain ⟨hc, hrest⟩ := wordless_cons.1 h
    rw [List.cons_append, keys_cuts_cons hc, ih hrest]

/-- What a character outside all words does to the line it stands on: a line break ends it, a slash
beside a star ends it too, and any other goes on with it. -/
theorem keys_onFirst_cuts_cons {c : Char} (hc : Wordless [c]) (text cs : List Char) :
    keys (onFirst text (cuts (c :: cs))) =
      if Text.isLineBreak c || cs.head?.any (isCut c) then keys [text] ++ keys (cuts cs)
      else keys (onFirst (text ++ [c]) (cuts cs)) := by
  rw [cuts]
  cases hbreak : Text.isLineBreak c with
  | true =>
    rw [if_pos rfl, Bool.true_or, if_pos rfl, onFirst, List.append_nil, keys_cons]
  | false =>
    rw [if_neg Bool.false_ne_true, Bool.false_or]
    split
    · rw [onFirst, keys_cons, keys_singleton_append hc]
    · rw [onFirst_consFirst]

/-- A slash beside a star somewhere in a text without words keeps what is before the text apart from
what is behind it. -/
theorem keys_onFirst_cuts_append {before after : List Char} {a b : Char} (hcut : isCut a b = true)
    (h : Wordless (before ++ a :: b :: after)) (text cs : List Char) :
    keys (onFirst text (cuts (before ++ a :: b :: after ++ cs))) =
      keys [text] ++ keys (cuts cs) := by
  induction before generalizing text with
  | nil =>
    obtain ⟨ha, hrest⟩ := wordless_cons.1 h
    have hends : (Text.isLineBreak a || (b :: (after ++ cs)).head?.any (isCut a)) = true := by
      simp [hcut]
    rw [List.nil_append, List.cons_append, List.cons_append, keys_onFirst_cuts_cons ha,
      if_pos hends, ← List.cons_append, keys_cuts_append hrest]
  | cons c before ih =>
    rw [List.cons_append] at h
    obtain ⟨hc, hrest⟩ := wordless_cons.1 h
    rw [List.cons_append, List.cons_append, keys_onFirst_cuts_cons hc]
    split
    · rw [keys_cuts_append hrest]
    · rw [ih hrest, keys_singleton_append hc]

/-! ## Delimiters -/

/-- A delimiter has no words, and unless it stands at the start of a line there is a slash beside a
star in it. -/
structure IsDelimiter (lineStart : Bool) (text : List Char) : Prop where
  ne_nil : text ≠ []
  wordless : Wordless text
  cut : lineStart = true ∨
    ∃ before a b after, text = before ++ a :: b :: after ∧ isCut a b = true

theorem exists_run (c : Char) (cs : List Char) :
    ∃ run rest, cs = run ++ rest ∧ run.length = leading c cs ∧ ∀ d ∈ run, d = c := by
  refine ⟨_, _, (List.takeWhile_append_dropWhile (p := (· == c))).symm, rfl, fun d hd => ?_⟩
  simpa using List.mem_takeWhile_imp hd

theorem exists_of_opening? {cs : List Char} {n : Nat} (lineStart : Bool)
    (h : opening? cs = some n) :
    ∃ text rest, cs = text ++ rest ∧ text.length = n ∧ IsDelimiter lineStart text := by
  unfold opening? at h
  split at h
  · next stars =>
    obtain rfl := Option.some.inj h
    obtain ⟨run, rest, rfl, hlength, hrun⟩ := exists_run '*' stars
    refine ⟨'/' :: '*' :: run, rest, rfl, by simp [hlength], List.cons_ne_nil _ _, ?_,
      Or.inr ⟨[], '/', '*', run, rfl, rfl⟩⟩
    refine wordless_of_subset ?_
    simp only [List.forall_mem_cons]
    exact ⟨by decide, by decide, fun c hc => by rw [hrun c hc]; decide⟩
  · exact absurd h.symm (Option.some_ne_none n)

theorem exists_of_closing? {cs : List Char} {n : Nat} (lineStart : Bool)
    (h : closing? cs = some n) :
    ∃ text rest, cs = text ++ rest ∧ text.length = n ∧ IsDelimiter lineStart text := by
  have hstar : Wordless ['*'] := wordless_of_subset (by simp [delimiterChars])
  fun_induction closing? cs generalizing n with
  | case1 rest =>
    obtain rfl := Option.some.inj h
    have hwordless : Wordless ['*', '/'] := wordless_of_subset (by simp [delimiterChars])
    exact ⟨['*', '/'], rest, rfl, rfl, List.cons_ne_nil _ _, hwordless,
      Or.inr ⟨[], '*', '/', [], rfl, rfl⟩⟩
  | case2 rest _ ih =>
    obtain ⟨k, hk, rfl⟩ := Option.map_eq_some_iff.1 h
    obtain ⟨text, rest, rfl, rfl, -, hwordless, hcut⟩ := ih hk
    refine ⟨'*' :: text, rest, rfl, rfl, List.cons_ne_nil _ _,
      wordless_cons.2 ⟨hstar, hwordless⟩, hcut.imp id fun hx => ?_⟩
    obtain ⟨before, a, b, after, rfl, hab⟩ := hx
    exact ⟨'*' :: before, a, b, after, rfl, hab⟩
  | case3 => exact absurd h.symm (Option.some_ne_none n)

/-- Blanks, then some characters of delimiters: a delimiter if it stands at the start of a line. -/
theorem isDelimiter_of_lineStart {blanks chars : List Char}
    (hblanks : ∀ c ∈ blanks, Text.isBlank c = true) (hne : chars ≠ [])
    (hchars : ∀ c ∈ chars, c ∈ delimiterChars) : IsDelimiter true (blanks ++ chars) where
  ne_nil := List.append_ne_nil_of_right_ne_nil _ hne
  wordless := wordless_append.2 ⟨wordless_of_forall_isBlank hblanks, wordless_of_subset hchars⟩
  cut := Or.inl rfl

theorem exists_of_lineHead? {cs : List Char} {n : Nat} (h : lineHead? cs = some n) :
    ∃ text rest, cs = text ++ rest ∧ text.length = n ∧ IsDelimiter true text := by
  obtain ⟨blanks, tail, rfl, hblanks, htake, hdrop⟩ : ∃ blanks tail, cs = blanks ++ tail ∧
      (∀ c ∈ blanks, Text.isBlank c = true) ∧ cs.takeWhile Text.isBlank = blanks ∧
      cs.dropWhile Text.isBlank = tail :=
    ⟨_, _, List.takeWhile_append_dropWhile.symm, fun c hc => List.mem_takeWhile_imp hc, rfl, rfl⟩
  have hrun : ∀ (c : Char) (head following : List Char), c ∈ delimiterChars → head ≠ [] →
      (∀ d ∈ head, d = c) → ∃ text rest, blanks ++ (head ++ following) = text ++ rest ∧
        text.length = blanks.length + leading c following + head.length ∧ IsDelimiter true text := by
    intro c head following hc hne hhead
    obtain ⟨run, rest, rfl, hlength, hall⟩ := exists_run c following
    refine ⟨blanks ++ (head ++ run), rest, by simp, by simp [hlength]; omega,
      isDelimiter_of_lineStart hblanks (List.append_ne_nil_of_left_ne_nil hne _) ?_⟩
    exact List.forall_mem_append.2 ⟨fun d hd => hhead d hd ▸ hc, fun d hd => hall d hd ▸ hc⟩
  unfold lineHead? at h
  rw [htake, hdrop] at h
  dsimp only at h
  split at h
  · next following =>
    obtain rfl := Option.some.inj h
    exact hrun '/' ['/', '/'] following (by decide) (List.cons_ne_nil _ _) (by simp)
  · next following =>
    obtain rfl := Option.some.inj h
    exact hrun '*' ['*'] following (by decide) (List.cons_ne_nil _ _) (by simp)
  · next following =>
    obtain rfl := Option.some.inj h
    exact hrun '#' ['#'] following (by decide) (List.cons_ne_nil _ _) (by simp)
  · exact absurd h.symm (Option.some_ne_none n)

/-- What the scan takes for a delimiter. -/
theorem exists_of_delimiter? {lineStart : Bool} {cs : List Char} {n : Nat}
    (h : delimiter? lineStart cs = some n) :
    ∃ text rest, cs = text ++ rest ∧ text.length = n ∧ IsDelimiter lineStart text := by
  unfold delimiter? at h
  rcases Option.or_eq_some_iff.1 h with hopening | ⟨-, h⟩
  · exact exists_of_opening? lineStart hopening
  · rcases Option.or_eq_some_iff.1 h with hclosing | ⟨-, h⟩
    · exact exists_of_closing? lineStart hclosing
    · split at h
      · next hstart =>
        rw [hstart]
        exact exists_of_lineHead? h
      · exact absurd h.symm (Option.some_ne_none n)

/-- The scan passes no slash beside a star. -/
theorem head?_any_isCut_of_delimiter? {lineStart : Bool} {c : Char} {cs : List Char}
    (h : delimiter? lineStart (c :: cs) = none) : cs.head?.any (isCut c) = false := by
  unfold delimiter? at h
  obtain ⟨hopening, h⟩ := Option.or_eq_none_iff.1 h
  have hclosing := (Option.or_eq_none_iff.1 h).1
  cases cs with
  | nil => rfl
  | cons d cs =>
    by_contra hcut
    simp only [List.head?_cons, Option.any_some, isCut, Bool.not_eq_false, Bool.or_eq_true,
      Bool.and_eq_true, beq_iff_eq] at hcut
    rcases hcut with ⟨rfl, rfl⟩ | ⟨rfl, rfl⟩
    · simp [opening?] at hopening
    · simp [closing?] at hclosing

/-! ## The scan against the cuts -/

theorem exists_undelimitedAfter_length (text rest : List Char) (lineStart : Bool) :
    ∃ lineStart', undelimitedAfter text.length lineStart (text ++ rest) =
      undelimitedAfter 0 lineStart' rest := by
  induction text generalizing lineStart with
  | nil => exact ⟨lineStart, rfl⟩
  | cons c text ih => exact ih (c == '\n')

/-- One step of the scan at a delimiter, which ends the line. -/
theorem exists_undelimitedAfter_of_delimiter? {lineStart : Bool} {cs : List Char} {n : Nat}
    (h : delimiter? lineStart cs = some n) :
    ∃ text rest lineStart', cs = text ++ rest ∧ IsDelimiter lineStart text ∧
      undelimitedAfter 0 lineStart cs = '\n' :: undelimitedAfter 0 lineStart' rest := by
  obtain ⟨text, rest, rfl, rfl, hdelimiter⟩ := exists_of_delimiter? h
  obtain ⟨c, text, rfl⟩ := List.exists_cons_of_ne_nil hdelimiter.ne_nil
  obtain ⟨lineStart', hskip⟩ := exists_undelimitedAfter_length text rest (c == '\n')
  refine ⟨c :: text, rest, lineStart', rfl, hdelimiter, ?_⟩
  rw [List.cons_append] at h ⊢
  rw [undelimitedAfter, h]
  exact congrArg ('\n' :: ·) hskip

/-- A delimiter ends a line in the cuts too, unless there is nothing on the line before it. -/
theorem IsDelimiter.keys_onFirst_cuts {lineStart : Bool} {delimiter : List Char}
    (h : IsDelimiter lineStart delimiter) {text : List Char}
    (hstart : lineStart = true → Wordless text) (cs : List Char) :
    keys (onFirst text (cuts (delimiter ++ cs))) = keys [text] ++ keys (cuts cs) := by
  rcases h.cut with hline | ⟨before, a, b, after, rfl, hcut⟩
  · rw [keys_onFirst_of_wordless (hstart hline), keys_singleton_of_wordless (hstart hline),
      List.nil_append, keys_cuts_append h.wordless]
  · exact keys_onFirst_cuts_append hcut h.wordless text cs

/-- The scan and the cuts give the same lines up to those without words, whatever stands on the line
already. At the start of a line that is nothing but blanks and delimiters. -/
theorem keys_undelimitedAfter (cs : List Char) (lineStart : Bool) (text : List Char)
    (hstart : lineStart = true → Wordless text) :
    keys (onFirst text (lines (undelimitedAfter 0 lineStart cs))) =
      keys (onFirst text (cuts cs)) := by
  -- The induction is on the length, as a delimiter takes several characters at once.
  induction hlength : cs.length using Nat.strong_induction_on generalizing cs lineStart text with
  | _ k ih =>
  subst hlength
  have hfresh : ∀ rest lineStart', rest.length < cs.length →
      keys (lines (undelimitedAfter 0 lineStart' rest)) = keys (cuts rest) := by
    intro rest lineStart' hlt
    have := ih rest.length hlt rest lineStart' [] (fun _ => wordless_nil) rfl
    rwa [keys_onFirst_of_wordless wordless_nil, keys_onFirst_of_wordless wordless_nil] at this
  cases cs with
  | nil => rfl
  | cons c cs =>
    cases hdelimiter? : delimiter? lineStart (c :: cs) with
    | some n =>
      obtain ⟨delimiter, rest, lineStart', hsplit, hdelimiter, hscan⟩ :=
        exists_undelimitedAfter_of_delimiter? hdelimiter?
      have hlt : rest.length < (c :: cs).length := by
        have := List.length_pos_iff.2 hdelimiter.ne_nil
        rw [hsplit, List.length_append]
        omega
      rw [hscan, lines, if_pos (by decide), onFirst, List.append_nil, keys_cons,
        hfresh rest lineStart' hlt, hsplit, hdelimiter.keys_onFirst_cuts hstart]
    | none =>
      have hlt : cs.length < (c :: cs).length := Nat.lt_succ_self _
      rw [undelimitedAfter, hdelimiter?, lines, cuts, head?_any_isCut_of_delimiter? hdelimiter?]
      by_cases hbreak : Text.isLineBreak c = true
      · rw [if_pos hbreak, if_pos hbreak, onFirst, onFirst, keys_cons, hfresh cs _ hlt, ← keys_cons]
      · have hfeed : (c == '\n') = false := by
          refine beq_eq_false_iff_ne.2 fun heq => hbreak ?_
          rw [heq]
          decide
        rw [if_neg hbreak, if_neg hbreak, if_neg Bool.false_ne_true, onFirst_consFirst,
          onFirst_consFirst, hfeed]
        exact ih cs.length hlt cs false (text ++ [c]) (fun h => absurd h Bool.false_ne_true) rfl

/-- The marker of a comment is the last one in its cuts. -/
theorem parse?_eq (comment : String) :
    parse? comment =
      ((cuts comment.toList).filterMap fun line => ofWords? (words line)).getLast? := by
  have hkeys := keys_undelimitedAfter comment.toList true [] fun _ => wordless_nil
  rw [keys_onFirst_of_wordless wordless_nil, keys_onFirst_of_wordless wordless_nil] at hkeys
  rw [parse?, undelimited, filterMap_ofWords?, filterMap_ofWords?, hkeys]

-- The first delimiter takes a blank line and a separator that is no line feed with it.
example : parse? "State\n\n \u2028 ** Refs */* Effects\n//" = some .effects := by
  decide +kernel

/-- The last marker wins, line by line: of a comment in two parts with a line feed between them, the
marker is that of the second part, if it has one, and otherwise that of the first. -/
theorem last_marker_wins (a b : String) :
    parse? (a ++ "\n" ++ b) = (parse? b).or (parse? a) := by
  have hfeed : (a ++ "\n" ++ b).toList = a.toList ++ '\n' :: b.toList := by
    rw [String.toList_append, String.toList_append, List.append_assoc]
    rfl
  rw [parse?_eq, parse?_eq, parse?_eq, hfeed, cuts_append, List.filterMap_append,
    List.getLast?_append]

end ComponentLint.Marker
