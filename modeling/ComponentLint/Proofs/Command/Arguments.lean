import ComponentLint.Command.Arguments
/-
  What a check is asked to write. No argument asks for a fix but `--fix`, and none for sources but
  `--write-source` (`parse?_check`): an option that takes a value, other flags, one-letter options
  and paths leave both as they are (`Grammar.Keeps`).
-/

namespace ComponentLint.Command

namespace Grammar

variable {σ : Type}

/-- A property of what is read that no argument changes, but for flags that are not allowed. -/
structure Keeps (grammar : Grammar σ) (allowed : String → Prop) (P : σ → Prop) : Prop where
  flag : ∀ name apply, grammar.long name = some (.flag apply) → allowed name → ∀ s, P s →
    P (apply s)
  valued : ∀ name apply, grammar.long name = some (.valued apply) → ∀ s value, P s →
    P (apply s value)
  short : ∀ c apply, grammar.short c = some apply → ∀ s, P s → P (apply s)
  positional : ∀ s argument s', grammar.positional s argument = some s' → P s → P s'

variable {grammar : Grammar σ} {allowed : String → Prop} {P : σ → Prop}

theorem Keeps.shortFlags (hkeeps : grammar.Keeps allowed P) {state state' : σ} {cs : List Char}
    (hstate : P state) (h : grammar.shortFlags state cs = some state') : P state' := by
  induction cs generalizing state with
  | nil =>
    cases h
    exact hstate
  | cons c cs ih =>
    obtain ⟨apply, happly, h⟩ := Option.bind_eq_some_iff.1 h
    exact ih (hkeeps.short c apply happly state hstate) h

theorem Keeps.positionals (hkeeps : grammar.Keeps allowed P) {state state' : σ}
    {words : List String} (hstate : P state)
    (h : grammar.positionals state words = some state') : P state' := by
  induction words generalizing state with
  | nil =>
    cases h
    exact hstate
  | cons word words ih =>
    obtain ⟨s, hs, h⟩ := Option.bind_eq_some_iff.1 h
    exact ih (hkeeps.positional state word s hs hstate) h

theorem eq_of_cutValue {argument name : String} (h : cutValue argument = (name, none)) :
    name = argument := by
  unfold cutValue at h
  split at h
  · exact (congrArg Prod.fst h).symm
  · exact nomatch congrArg Prod.snd h

theorem Keeps.read (hkeeps : grammar.Keeps allowed P) {state state' : σ} {words : List String}
    (hallowed : ∀ word ∈ words, allowed word) (hstate : P state)
    (h : grammar.read state words = some state') : P state' := by
  fun_induction Grammar.read grammar state words with
  | case1 =>
    cases h
    exact hstate
  | case2 => exact hkeeps.positionals hstate h
  | case3 state argument rest _ _ name apply hlong hcut ih =>
    rw [eq_of_cutValue hcut] at hlong
    have hstep := hkeeps.flag argument apply hlong (hallowed argument List.mem_cons_self) state hstate
    exact ih (fun word hword => hallowed word (List.mem_cons_of_mem _ hword)) hstep h
  | case5 state argument rest _ _ name apply value hlong _ ih =>
    exact ih (fun word hword => hallowed word (List.mem_cons_of_mem _ hword))
      (hkeeps.valued name apply hlong state value hstate) h
  | case7 state argument _ _ name apply hlong value rest _ ih =>
    exact ih (fun word hword => hallowed word (List.mem_cons_of_mem _ (List.mem_cons_of_mem _ hword)))
      (hkeeps.valued name apply hlong state value hstate) h
  | case9 state argument rest _ _ name value _ _ _ ih =>
    obtain ⟨s, hs, h⟩ := Option.bind_eq_some_iff.1 h
    exact ih s (fun word hword => hallowed word (List.mem_cons_of_mem _ hword))
      (hkeeps.shortFlags hstate hs) h
  | case10 state argument rest _ _ ih =>
    obtain ⟨s, hs, h⟩ := Option.bind_eq_some_iff.1 h
    exact ih s (fun word hword => hallowed word (List.mem_cons_of_mem _ hword))
      (hkeeps.positional state argument s hs hstate) h
  | case4 => exact nomatch h
  | case6 => exact nomatch h
  | case8 => exact nomatch h

end Grammar

/-- What a check is asked to write stands among the arguments given. -/
structure CheckWords.AskedIn (given : List String) (words : CheckWords) : Prop where
  fix : words.fix = true → "--fix" ∈ given
  writeSource : words.writeSource = true → "--write-source" ∈ given

theorem keeps_askedIn (given : List String) :
    checkGrammar.Keeps (· ∈ given) (CheckWords.AskedIn given) := by
  constructor
  case flag =>
    intro name apply hlong hname words h
    simp only [checkGrammar, checkOption] at hlong
    split at hlong
    all_goals cases hlong
    -- `--fix`, `--naming`, `--no-naming`, `--write-source` and `--verbose`
    · exact ⟨fun _ => hname, h.writeSource⟩
    · exact ⟨h.fix, h.writeSource⟩
    · exact ⟨h.fix, h.writeSource⟩
    · exact ⟨h.fix, fun _ => hname⟩
    · exact ⟨h.fix, h.writeSource⟩
  case valued =>
    intro name apply hlong words value h
    simp only [checkGrammar, checkOption] at hlong
    split at hlong
    all_goals cases hlong
    all_goals exact ⟨h.fix, h.writeSource⟩
  case short =>
    intro c apply hshort words h
    simp only [checkGrammar] at hshort
    split at hshort
    · cases hshort
      exact ⟨h.fix, h.writeSource⟩
    · exact nomatch hshort
  case positional =>
    intro words argument words' hpositional h
    cases hpositional
    exact ⟨h.fix, h.writeSource⟩

theorem CheckWords.read?_eq_some {words : CheckWords} {arguments : CheckArguments}
    (h : words.read? = some arguments) :
    arguments.fix = words.fix ∧ arguments.writeSource = words.writeSource := by
  unfold read? at h
  obtain ⟨paths, -, h⟩ := Option.bind_eq_some_iff.1 h
  obtain ⟨format, -, h⟩ := Option.bind_eq_some_iff.1 h
  obtain ⟨config, -, h⟩ := Option.bind_eq_some_iff.1 h
  obtain ⟨root, -, h⟩ := Option.bind_eq_some_iff.1 h
  obtain ⟨jobs, -, h⟩ := Option.bind_eq_some_iff.1 h
  split at h
  · exact nomatch h
  · cases h
    exact ⟨rfl, rfl⟩

/-- The arguments of a check, and which of those given ask for what it writes. -/
theorem parse?_check (given : List String) :
    parse? ("check" :: given) = none ∨
    ∃ arguments, parse? ("check" :: given) = some (.check arguments) ∧
      (arguments.fix = true → "--fix" ∈ given) ∧
      (arguments.writeSource = true → "--write-source" ∈ given) := by
  have hparse : parse? ("check" :: given) =
      ((checkGrammar.read {} given).bind CheckWords.read?).map .check := rfl
  cases hread : (checkGrammar.read {} given).bind CheckWords.read? with
  | none =>
    rw [hread] at hparse
    exact Or.inl hparse
  | some arguments =>
    rw [hread] at hparse
    obtain ⟨words, hwords, harguments⟩ := Option.bind_eq_some_iff.1 hread
    obtain ⟨hfix, hsource⟩ := CheckWords.read?_eq_some harguments
    have hasked : words.AskedIn given :=
      (keeps_askedIn given).read (fun _ hword => hword) ⟨by simp, by simp⟩ hwords
    exact Or.inr ⟨arguments, hparse, hfix ▸ hasked.fix, hsource ▸ hasked.writeSource⟩

end ComponentLint.Command
