import ComponentLint.Proofs.Json.Strings
/-
  Integers in JSON texts. An integer is written with its decimal digits and a sign if it is
  negative, and is read back if what follows cannot belong to a number (`Ends`), unless it has more
  digits than the reader takes (`readScalar_int`).
-/

namespace ComponentLint.Json

/-- What follows a number and does not belong to it. -/
structure Ends (rest : List Char) : Prop where
  digit : ∀ c ∈ rest.head?, c.isDigit = false
  mark : ∀ c ∈ rest.head?, c ≠ '.' ∧ c ≠ 'e' ∧ c ≠ 'E'

theorem ends_nil : Ends [] :=
  ⟨nofun, nofun⟩

theorem ends_cons {c : Char} (h : c.isDigit = false ∧ c ≠ '.' ∧ c ≠ 'e' ∧ c ≠ 'E') (rest : List Char) :
    Ends (c :: rest) := by
  constructor
  · intro d hd
    cases hd
    exact h.1
  · intro d hd
    cases hd
    exact h.2

theorem toList_toString_int (value : Int) :
    (toString value).toList =
      if value < 0 then '-' :: Nat.toDigits 10 value.natAbs else Nat.toDigits 10 value.natAbs := by
  cases value with
  | ofNat n =>
    rw [if_neg (by simp)]
    show (toString n).toList = _
    rw [Nat.toString_eq_ofList_toDigits, String.toList_ofList]
    rfl
  | negSucc n =>
    rw [if_pos (Int.negSucc_lt_zero n)]
    show ("-" ++ toString (n + 1)).toList = _
    simp only [String.toList_append, Nat.toString_eq_ofList_toDigits, String.toList_ofList]
    rfl

theorem isDigit_toDigits {n : Nat} {c : Char} (h : c ∈ Nat.toDigits 10 n) : c.isDigit = true :=
  Nat.isDigit_of_mem_toDigits (by decide) (by decide) h

theorem natOfDigits_toDigits (n : Nat) : natOfDigits (Nat.toDigits 10 n) = n := by
  rw [natOfDigits, ← Nat.ofDigitChars_eq_foldl, Nat.ofDigitChars_ten_toDigits]

/-- Only zero is written with a zero in front. -/
theorem head?_toDigits {n : Nat} (h : n ≠ 0) : (Nat.toDigits 10 n).head? ≠ some '0' := by
  induction n using Nat.strongRecOn with
  | ind n ih =>
    by_cases hlt : n < 10
    · rw [Nat.toDigits_of_lt_base hlt, List.head?_cons, ne_eq, Option.some.injEq]
      have hdigit : ∀ m < 10, m ≠ 0 → Nat.digitChar m ≠ '0' := by decide
      exact hdigit n hlt h
    · rw [Nat.toDigits_of_base_le (by decide) (Nat.le_of_not_lt hlt),
        List.head?_append_of_ne_nil _ Nat.toDigits_ne_nil]
      exact ih (n / 10) (by omega) (by omega)

theorem takeWhile_toDigits (n : Nat) {rest : List Char} (hrest : Ends rest) :
    (Nat.toDigits 10 n ++ rest).takeWhile Char.isDigit = Nat.toDigits 10 n := by
  have hnone : rest.takeWhile Char.isDigit = [] := by
    cases rest with
    | nil => rfl
    | cons c rest => rw [List.takeWhile_cons, hrest.digit c rfl]; rfl
  rw [List.takeWhile_append_of_pos fun c hc => isDigit_toDigits hc, hnone, List.append_nil]

theorem fraction?_of_ends {rest : List Char} (hrest : Ends rest) : fraction? rest = none := by
  unfold fraction?
  split
  · exact absurd rfl (hrest.mark '.' rfl).1
  · rfl

theorem exponent?_of_ends {rest : List Char} (hrest : Ends rest) : exponent? rest = none := by
  unfold exponent?
  split
  · next mark rest =>
    have hmark := (hrest.mark mark rfl).2
    rw [if_neg]
    simp [hmark]
  · rfl

theorem leadingDigits_toDigits (n : Nat) {rest : List Char} (hrest : Ends rest) :
    leadingDigits (Nat.toDigits 10 n ++ rest) = Nat.toDigits 10 n := by
  by_cases hzero : n = 0
  · rw [hzero]
    rfl
  · unfold leadingDigits
    split
    · next heq =>
      have happend : (Nat.toDigits 10 n ++ rest).head? = (Nat.toDigits 10 n).head? :=
        List.head?_append_of_ne_nil _ Nat.toDigits_ne_nil
      rw [heq] at happend
      exact absurd happend.symm (head?_toDigits hzero)
    · exact takeWhile_toDigits n hrest

theorem readNumber_toDigits (limit : Nat) (negative : Bool) (n : Nat) {rest : List Char}
    (hrest : Ends rest) :
    readNumber limit negative (Nat.toDigits 10 n ++ rest) =
      if (Nat.toDigits 10 n).length ≤ limit then
        .ok (.int (if negative then -(n : Int) else n), rest)
      else .error .integerTooLong := by
  have hne : (Nat.toDigits 10 n).isEmpty = false := by
    simp [Nat.toDigits_ne_nil]
  unfold readNumber
  simp only [leadingDigits_toDigits n hrest, hne, List.drop_left, fraction?_of_ends hrest,
    exponent?_of_ends hrest, List.append_nil, natOfDigits_toDigits, Bool.false_eq_true, if_false]
  by_cases hlen : (Nat.toDigits 10 n).length ≤ limit
  · rw [if_pos hlen, if_neg (Nat.not_lt.2 hlen)]
  · rw [if_neg hlen, if_pos (Nat.lt_of_not_le hlen)]

theorem readWord?_of_isDigit {c : Char} (h : c.isDigit = true) (cs : List Char) :
    readWord? (c :: cs) = none ∧ readWord? ('-' :: c :: cs) = none := by
  have hne : ∀ d : Char, d.isDigit = false → d ≠ c := by
    rintro d hd rfl
    rw [hd] at h
    exact nomatch h
  constructor
  · simp [readWord?, afterWord?, List.isPrefixOf?, hne 'n' rfl, hne 't' rfl, hne 'f' rfl,
      hne 'N' rfl, hne 'I' rfl, hne '-' rfl]
  · simp [readWord?, afterWord?, List.isPrefixOf?, hne 'I' rfl]

theorem readScalar_int (limit : Nat) (value : Int) {rest : List Char} (hrest : Ends rest) :
    readScalar limit ((toString value).toList ++ rest) =
      if (Nat.toDigits 10 value.natAbs).length ≤ limit then .ok (.int value, rest)
      else .error .integerTooLong := by
  obtain ⟨c, cs, hcs⟩ := List.exists_cons_of_ne_nil
    (Nat.toDigits_ne_nil : Nat.toDigits 10 value.natAbs ≠ [])
  have hdigit : c.isDigit = true := isDigit_toDigits (hcs ▸ List.mem_cons_self)
  obtain ⟨hword, hword'⟩ := readWord?_of_isDigit hdigit (cs ++ rest)
  rw [toList_toString_int]
  by_cases hneg : value < 0
  · have hvalue : -(value.natAbs : Int) = value := by omega
    have hsigned : readScalar limit ('-' :: (Nat.toDigits 10 value.natAbs ++ rest)) =
        readNumber limit true (Nat.toDigits 10 value.natAbs ++ rest) := by
      rw [readScalar, hcs, List.cons_append, hword']
    rw [if_pos hneg, List.cons_append, hsigned, readNumber_toDigits limit true _ hrest, if_pos rfl,
      hvalue]
  · have hvalue : (value.natAbs : Int) = value := by omega
    have hunsigned : readScalar limit (Nat.toDigits 10 value.natAbs ++ rest) =
        readNumber limit false (Nat.toDigits 10 value.natAbs ++ rest) := by
      have hsign : ∀ more, Nat.toDigits 10 value.natAbs ++ rest ≠ '-' :: more := by
        intro more heq
        rw [hcs, List.cons_append] at heq
        rw [(List.cons.inj heq).1] at hdigit
        exact nomatch hdigit
      rw [readScalar, hcs, List.cons_append, hword]
      exact hsign
    rw [if_neg hneg, hunsigned, readNumber_toDigits limit false _ hrest, if_neg Bool.false_ne_true,
      hvalue]

/-- The characters that an integer begins with. -/
def BeginsInteger (c : Char) : Prop :=
  c = '-' ∨ c.isDigit = true

theorem BeginsInteger.ne_of {c d : Char} (h : BeginsInteger c)
    (hd : d ≠ '-' ∧ d.isDigit = false) : c ≠ d := by
  rintro rfl
  rcases h with h | h
  · exact hd.1 h
  · rw [hd.2] at h
    exact nomatch h

theorem BeginsInteger.isSpace {c : Char} (h : BeginsInteger c) : isSpace c = false := by
  have hspace : c ≠ ' ' := h.ne_of (by decide)
  have hfeed : c ≠ '\n' := h.ne_of (by decide)
  have hreturn : c ≠ '\r' := h.ne_of (by decide)
  have htab : c ≠ '\t' := h.ne_of (by decide)
  simp [Json.isSpace, hspace, hfeed, hreturn, htab]

theorem exists_cons_int (value : Int) :
    ∃ c cs, (toString value).toList = c :: cs ∧ BeginsInteger c := by
  rw [toList_toString_int]
  split
  · exact ⟨_, _, rfl, Or.inl rfl⟩
  · obtain ⟨c, cs, hcs⟩ := List.exists_cons_of_ne_nil
      (Nat.toDigits_ne_nil : Nat.toDigits 10 value.natAbs ≠ [])
    exact ⟨c, cs, hcs, Or.inr (isDigit_toDigits (hcs ▸ List.mem_cons_self))⟩

end ComponentLint.Json
