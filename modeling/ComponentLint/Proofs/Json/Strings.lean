import ComponentLint.Data.Json
import Mathlib.Data.List.Basic
/-
  Strings in JSON texts. Every character is written as itself, by a letter or by the code of one or
  two units, in ASCII, and is read back from that whatever follows (`nextPoint?_escapedChar`). A
  surrogate is written by its code and is read back unless its partner follows
  (`nextPoint?_surrogate`); hence so is every string without pairs (`readString_flatMap`).
-/

namespace ComponentLint.Json

open Text

/-- A text of ASCII characters. -/
def IsAscii (cs : List Char) : Prop :=
  ∀ c ∈ cs, c.toNat < 128

@[simp] theorem isAscii_nil : IsAscii [] :=
  nofun

@[simp] theorem isAscii_append {cs ds : List Char} : IsAscii (cs ++ ds) ↔ IsAscii cs ∧ IsAscii ds :=
  List.forall_mem_append

@[simp] theorem isAscii_cons {c : Char} {cs : List Char} :
    IsAscii (c :: cs) ↔ c.toNat < 128 ∧ IsAscii cs :=
  List.forall_mem_cons

/-! ## Codes -/

theorem hexValue?_digitChar : ∀ n < 16, hexValue? (Nat.digitChar n) = some n := by
  decide

theorem digitChar_ascii : ∀ n < 16, (Nat.digitChar n).toNat < 128 := by
  decide

theorem hexDigits_four (n : Nat) :
    hexDigits 4 n = [Nat.digitChar (n / 16 / 16 / 16 % 16), Nat.digitChar (n / 16 / 16 % 16),
      Nat.digitChar (n / 16 % 16), Nat.digitChar (n % 16)] :=
  rfl

theorem hexValues?_hexDigits {n : Nat} (h : n < 0x10000) : hexValues? (hexDigits 4 n) = some n := by
  have hdigit : ∀ m, hexValue? (Nat.digitChar (m % 16)) = some (m % 16) := fun m =>
    hexValue?_digitChar _ (Nat.mod_lt _ (by decide))
  rw [hexDigits_four]
  simp only [hexValues?, hexValues?.go, hdigit, Option.bind_some, Option.some.injEq]
  omega

@[simp] theorem isAscii_hexDigits (width n : Nat) : IsAscii (hexDigits width n) := by
  induction width generalizing n with
  | zero => exact isAscii_nil
  | succ width ih =>
    refine isAscii_append.2 ⟨ih (n / 16), fun c hc => ?_⟩
    rw [List.mem_singleton.1 hc]
    exact digitChar_ascii _ (Nat.mod_lt _ (by decide))

/-- A unit that begins no pair is a code point of its own. -/
theorem nextPoint?_unit {n : Nat} (h : n < 0x10000) {rest : List Char}
    (hno : isHighSurrogate n = true → lowSurrogate? rest = none) :
    nextPoint? ('\\' :: 'u' :: hexDigits 4 n ++ rest) = some (some (unitPoint n), rest) := by
  have hvalue := hexValues?_hexDigits h
  have hsingle : (if isHighSurrogate n then lowSurrogate? rest else none) = none := by
    split
    · next hhigh => exact hno hhigh
    · rfl
  rw [hexDigits_four] at hvalue ⊢
  simp only [List.cons_append, List.nil_append, nextPoint?, hvalue, hsingle]

/-- Two surrogates are one character. -/
theorem nextPoint?_pair {high low : Nat} (hhigh : isHighSurrogate high = true)
    (hlow : isLowSurrogate low = true) (rest : List Char) :
    nextPoint? ('\\' :: 'u' :: hexDigits 4 high ++ ('\\' :: 'u' :: hexDigits 4 low ++ rest)) =
      some (some (.char (pairChar high low)), rest) := by
  have hbounds : high < 0x10000 ∧ low < 0x10000 := by
    simp only [isHighSurrogate, isLowSurrogate, Bool.and_eq_true, decide_eq_true_eq] at hhigh hlow
    omega
  have hvalue := hexValues?_hexDigits hbounds.1
  have hvalue' := hexValues?_hexDigits hbounds.2
  rw [hexDigits_four] at hvalue hvalue'
  rw [hexDigits_four, hexDigits_four]
  simp only [List.cons_append, List.nil_append, nextPoint?, hvalue, hhigh, lowSurrogate?, hvalue',
    hlow, if_true]

/-- A character lies outside the surrogates. -/
theorem char_range (c : Char) : c.toNat < 0xD800 ∨ 0xDFFF < c.toNat ∧ c.toNat < 0x110000 := by
  exact c.valid

theorem nextPoint?_escapedCode (c : Char) (rest : List Char) :
    nextPoint? (escapedCode c.toNat ++ rest) = some (some (.char c), rest) := by
  have hrange := char_range c
  unfold escapedCode
  split
  · next h =>
    have hhigh : isHighSurrogate c.toNat = false := by
      simp only [isHighSurrogate, Bool.and_eq_false_iff, decide_eq_false_iff_not]
      omega
    have hlow : isLowSurrogate c.toNat = false := by
      simp only [isLowSurrogate, Bool.and_eq_false_iff, decide_eq_false_iff_not]
      omega
    rw [nextPoint?_unit h (by simp [hhigh]), unitPoint, hhigh, hlow]
    simp
  · next h =>
    have hhigh : isHighSurrogate (0xD800 + (c.toNat - 0x10000) / 0x400) = true := by
      simp only [isHighSurrogate, Bool.and_eq_true, decide_eq_true_eq]
      omega
    have hlow : isLowSurrogate (0xDC00 + (c.toNat - 0x10000) % 0x400) = true := by
      simp only [isLowSurrogate, Bool.and_eq_true, decide_eq_true_eq]
      omega
    have hcode : 0x10000 + (0xD800 + (c.toNat - 0x10000) / 0x400 - 0xD800) * 0x400 +
        (0xDC00 + (c.toNat - 0x10000) % 0x400 - 0xDC00) = c.toNat := by
      omega
    rw [List.append_assoc, nextPoint?_pair hhigh hlow, pairChar, hcode, Char.ofNat_toNat]

theorem isAscii_escapedCode (n : Nat) : IsAscii (escapedCode n) := by
  unfold escapedCode
  split
  · simp
  · simp

/-! ## Characters -/

theorem nextPoint?_of_plain {c : Char} (hquote : c ≠ '"') (hslash : c ≠ '\\') (h : 0x20 ≤ c.toNat)
    (rest : List Char) : nextPoint? (c :: rest) = some (some (.char c), rest) := by
  unfold nextPoint?
  split
  · next heq => exact absurd (List.cons.inj heq).1 hquote
  · next heq => exact absurd (List.cons.inj heq).1 hslash
  · next heq => exact absurd (List.cons.inj heq).1 hslash
  · next heq =>
    obtain ⟨rfl, rfl⟩ := List.cons.inj heq
    rw [if_neg]
    simp [hslash, Nat.not_lt.2 h]
  · next heq => exact nomatch heq

/-- A character is read back from what it is written as, whatever follows. -/
theorem nextPoint?_escapedChar (c : Char) (rest : List Char) :
    nextPoint? (escapedChar c ++ rest) = some (some (.char c), rest) := by
  unfold escapedChar
  by_cases hquote : c = '"'
  · rw [if_pos hquote, hquote]
    rfl
  by_cases hslash : c = '\\'
  · rw [if_neg hquote, if_pos hslash, hslash]
    rfl
  rw [if_neg hquote, if_neg hslash]
  split
  · next h => rw [h]; rfl
  split
  · next h => rw [h]; rfl
  split
  · next h => rw [h]; rfl
  split
  · next h => rw [h]; rfl
  split
  · next h => rw [h]; rfl
  split
  · next h =>
    simp only [Bool.and_eq_true, decide_eq_true_eq] at h
    exact nextPoint?_of_plain hquote hslash h.1 rest
  · exact nextPoint?_escapedCode c rest

theorem isAscii_escapedChar (c : Char) : IsAscii (escapedChar c) := by
  unfold escapedChar
  split
  · simp
  split
  · simp
  split
  · simp
  split
  · simp
  split
  · simp
  split
  · simp
  split
  · simp
  split
  · next h =>
    simp only [Bool.and_eq_true, decide_eq_true_eq] at h
    exact isAscii_cons.2 ⟨by omega, isAscii_nil⟩
  · exact isAscii_escapedCode c.toNat

/-! ## Surrogates -/

theorem isHighSurrogate_code (offset : Fin 0x800) :
    isHighSurrogate (CodePoint.surrogate offset).code = decide (offset.val < 0x400) := by
  rw [CodePoint.code, Bool.eq_iff_iff]
  simp only [isHighSurrogate, Bool.and_eq_true, decide_eq_true_eq]
  omega

theorem isLowSurrogate_code (offset : Fin 0x800) :
    isLowSurrogate (CodePoint.surrogate offset).code = decide (0x400 ≤ offset.val) := by
  have hlt := offset.isLt
  rw [CodePoint.code, Bool.eq_iff_iff]
  simp only [isLowSurrogate, Bool.and_eq_true, decide_eq_true_eq]
  omega

theorem escapedPoint_surrogate (offset : Fin 0x800) : escapedPoint (.surrogate offset) =
    '\\' :: 'u' :: hexDigits 4 (CodePoint.surrogate offset).code := by
  have hlt := offset.isLt
  rw [escapedPoint, escapedCode, if_pos]
  rw [CodePoint.code]
  omega

/-- A surrogate is read back unless its partner follows. -/
theorem nextPoint?_surrogate {offset : Fin 0x800} {rest : List Char}
    (h : offset.val < 0x400 → lowSurrogate? rest = none) :
    nextPoint? (escapedPoint (.surrogate offset) ++ rest) =
      some (some (.surrogate offset), rest) := by
  have hlt := offset.isLt
  have hbound : (CodePoint.surrogate offset).code < 0x10000 := by
    rw [CodePoint.code]
    omega
  have hpoint : unitPoint (CodePoint.surrogate offset).code = .surrogate offset := by
    have hunit : (isHighSurrogate (CodePoint.surrogate offset).code ||
        isLowSurrogate (CodePoint.surrogate offset).code) = true := by
      rw [isHighSurrogate_code, isLowSurrogate_code, Bool.or_eq_true, decide_eq_true_eq,
        decide_eq_true_eq]
      omega
    rw [unitPoint, if_pos hunit, CodePoint.code, Nat.add_sub_cancel_left]
    exact congrArg CodePoint.surrogate (Fin.ext (Nat.mod_eq_of_lt hlt))
  have hno : isHighSurrogate (CodePoint.surrogate offset).code = true →
      lowSurrogate? rest = none := by
    rw [isHighSurrogate_code, decide_eq_true_eq]
    exact h
  rw [escapedPoint_surrogate, nextPoint?_unit hbound hno, hpoint]

theorem lowSurrogate?_unit {n : Nat} (h : n < 0x10000) (hlow : isLowSurrogate n = false)
    (rest : List Char) : lowSurrogate? ('\\' :: 'u' :: hexDigits 4 n ++ rest) = none := by
  have hvalue := hexValues?_hexDigits h
  rw [hexDigits_four] at hvalue ⊢
  simp [lowSurrogate?, hvalue, hlow]

theorem lowSurrogate?_of_ne {c : Char} (h : c ≠ '\\') (rest : List Char) :
    lowSurrogate? (c :: rest) = none := by
  unfold lowSurrogate?
  split
  · next heq => exact absurd (List.cons.inj heq).1 h
  · rfl

theorem lowSurrogate?_escapedCode (c : Char) (rest : List Char) :
    lowSurrogate? (escapedCode c.toNat ++ rest) = none := by
  have hrange := char_range c
  unfold escapedCode
  split
  · next h =>
    refine lowSurrogate?_unit h ?_ rest
    simp only [isLowSurrogate, Bool.and_eq_false_iff, decide_eq_false_iff_not]
    omega
  · rw [List.append_assoc]
    refine lowSurrogate?_unit ?_ ?_ _
    · omega
    · simp only [isLowSurrogate, Bool.and_eq_false_iff, decide_eq_false_iff_not]
      omega

/-- What a character is written as does not begin with a low surrogate. -/
theorem lowSurrogate?_escapedChar (c : Char) (rest : List Char) :
    lowSurrogate? (escapedChar c ++ rest) = none := by
  unfold escapedChar
  split
  · rfl
  split
  · rfl
  next hslash =>
  split
  · rfl
  split
  · rfl
  split
  · rfl
  split
  · rfl
  split
  · rfl
  split
  · exact lowSurrogate?_of_ne hslash rest
  · exact lowSurrogate?_escapedCode c rest

/-! ## Points -/

theorem isAscii_escapedPoint (point : CodePoint) : IsAscii (escapedPoint point) := by
  cases point with
  | char c => exact isAscii_escapedChar c
  | surrogate offset => exact isAscii_escapedCode _

theorem escapedPoint_ne_nil (point : CodePoint) : escapedPoint point ≠ [] := by
  cases point with
  | char c =>
    intro h
    have hnext := nextPoint?_escapedChar c []
    rw [show escapedChar c = [] from h, List.append_nil] at hnext
    exact absurd hnext (by simp [nextPoint?])
  | surrogate offset =>
    rw [escapedPoint_surrogate]
    exact List.cons_ne_nil _ _

/-- A surrogate that begins a pair is followed by no low surrogate if its neighbour makes none with
it. -/
theorem lowSurrogate?_flatMap {offset : Fin 0x800} (hhigh : offset.val < 0x400)
    {points : List CodePoint} (h : CodePoint.hasPair (.surrogate offset :: points) = false)
    (rest : List Char) : lowSurrogate? (points.flatMap escapedPoint ++ '"' :: rest) = none := by
  cases points with
  | nil => rfl
  | cons point points =>
    rw [List.flatMap_cons, List.append_assoc]
    rw [CodePoint.hasPair, Bool.or_eq_false_iff] at h
    cases point with
    | char c => exact lowSurrogate?_escapedChar c _
    | surrogate next =>
      have hlt := next.isLt
      have hlow : ¬ 0x400 ≤ next.val := by simpa [CodePoint.isPair, hhigh] using h.1
      rw [escapedPoint_surrogate]
      refine lowSurrogate?_unit ?_ ?_ _
      · rw [CodePoint.code]
        omega
      · rw [isLowSurrogate_code]
        exact decide_eq_false hlow

theorem hasPair_of_cons {point : CodePoint} {points : List CodePoint}
    (h : CodePoint.hasPair (point :: points) = false) : CodePoint.hasPair points = false := by
  cases points with
  | nil => rfl
  | cons next points =>
    rw [CodePoint.hasPair, Bool.or_eq_false_iff] at h
    exact h.2

theorem hasPair_map_char (cs : List Char) : CodePoint.hasPair (cs.map .char) = false := by
  induction cs with
  | nil => rfl
  | cons c cs ih =>
    cases cs with
    | nil => rfl
    | cons d cs => exact ih

/-! ## Strings -/

/-- A string without pairs is read back up to its closing quote. -/
theorem readString_flatMap {points : List CodePoint} (hpair : CodePoint.hasPair points = false)
    (rest : List Char) {fuel : Nat} (h : points.length < fuel) :
    readString fuel (points.flatMap escapedPoint ++ '"' :: rest) = some (points, rest) := by
  induction points generalizing fuel with
  | nil =>
    obtain ⟨fuel, rfl⟩ := Nat.exists_eq_succ_of_ne_zero (Nat.ne_of_gt h)
    rfl
  | cons point points ih =>
    obtain ⟨fuel, rfl⟩ := Nat.exists_eq_succ_of_ne_zero (Nat.ne_of_gt (Nat.zero_lt_of_lt h))
    have hrest := @ih (hasPair_of_cons hpair) fuel (by simpa using h)
    have hnext : nextPoint? (escapedPoint point ++ (points.flatMap escapedPoint ++ '"' :: rest)) =
        some (some point, points.flatMap escapedPoint ++ '"' :: rest) := by
      cases point with
      | char c => exact nextPoint?_escapedChar c _
      | surrogate offset =>
        exact nextPoint?_surrogate fun hhigh => lowSurrogate?_flatMap hhigh hpair rest
    rw [List.flatMap_cons, List.append_assoc, readString, hnext]
    simp only [hrest]

theorem length_le_length_flatMap (points : List CodePoint) :
    points.length ≤ (points.flatMap escapedPoint).length := by
  induction points with
  | nil => exact Nat.le_refl _
  | cons point points ih =>
    have hpos := List.length_pos_iff.2 (escapedPoint_ne_nil point)
    rw [List.flatMap_cons, List.length_append, List.length_cons]
    omega

/-- The reader of values gives a string enough fuel. -/
theorem readString_pointsText {points : List CodePoint} (hpair : CodePoint.hasPair points = false)
    (rest : List Char) : ∃ inner, pointsText points ++ rest = '"' :: inner ∧
      readString (inner.length + 1) inner = some (points, rest) := by
  refine ⟨points.flatMap escapedPoint ++ '"' :: rest, by simp [pointsText], ?_⟩
  refine readString_flatMap hpair rest ?_
  have hlen := length_le_length_flatMap points
  rw [List.length_append]
  omega

theorem readString_stringText (s : String) (rest : List Char) :
    ∃ inner, stringText s ++ rest = '"' :: inner ∧
      readString (inner.length + 1) inner = some (s.toList.map .char, rest) :=
  readString_pointsText (hasPair_map_char s.toList) rest

@[simp] theorem isAscii_pointsText (points : List CodePoint) : IsAscii (pointsText points) := by
  have hpoints : IsAscii (points.flatMap escapedPoint) := by
    intro d hd
    obtain ⟨point, -, hd⟩ := List.mem_flatMap.1 hd
    exact isAscii_escapedPoint point d hd
  simp [pointsText, hpoints]

@[simp] theorem isAscii_stringText (s : String) : IsAscii (stringText s) :=
  isAscii_pointsText _

end ComponentLint.Json
