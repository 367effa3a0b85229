/-
  Numbers with a fraction, as 64-bit binary floating point holds them: rounding of a decimal to
  the nearest such number, and the shortest decimal that rounds to a given one. All arithmetic
  is exact arithmetic on naturals.
-/

namespace ComponentLint

/-- A finite number is `± mantissa * 2 ^ exponent`. -/
inductive Binary64 where
  | finite (negative : Bool) (mantissa : Nat) (exponent : Int)
  | infinite (negative : Bool)
  | nan
deriving Repr, DecidableEq, Inhabited

namespace Binary64

/-- The quotient to the nearest natural; a half goes to the even neighbour. -/
def roundedQuotient (num den : Nat) : Nat :=
  let quotient := num / den
  let rest := 2 * (num % den)
  if rest < den || (rest == den && quotient % 2 == 0) then quotient else quotient + 1

def decimalLength (n : Nat) : Nat :=
  (Nat.toDigits 10 n).length

/-- The power of a base whose exponent is the positive part of an integer. -/
def powerOf (base : Nat) (exponent : Int) : Nat :=
  Nat.pow base exponent.toNat

/-- The number nearest to `± digits * 10 ^ exponent`. -/
def ofDecimal (negative : Bool) (digits : Nat) (exponent : Int) : Binary64 :=
  let size := (decimalLength digits : Int) + exponent
  if digits == 0 || size < -330 then finite negative 0 (-1074)
  else if 310 < size then infinite negative
  else
    let num := digits * powerOf 10 exponent
    let den := powerOf 10 (-exponent)
    let guess : Int := (num.log2 : Int) - den.log2 - 52
    let wide := num * powerOf 2 (-guess) / (den * powerOf 2 guess) < powerOf 2 52
    let power := max (if wide then guess - 1 else guess) (-1074)
    let mantissa := roundedQuotient (num * powerOf 2 (-power)) (den * powerOf 2 power)
    let carried := mantissa == powerOf 2 53
    let power := if carried then power + 1 else power
    if 971 < power then infinite negative
    else finite negative (if carried then powerOf 2 52 else mantissa) power

/-- The value, if it is a whole number. -/
def toInt? : Binary64 → Option Int
  | finite negative mantissa exponent =>
    let den := powerOf 2 (-exponent)
    if mantissa % den == 0 then
      let whole : Int := mantissa / den * powerOf 2 exponent
      some (if negative then -whole else whole)
    else none
  | _ => none

/-- Whether `digits * 10 ^ scale` rounds to `mantissa * 2 ^ exponent`: it lies between the
midpoints to the two neighbours, which themselves belong to an even mantissa. -/
def roundsTo (mantissa : Nat) (exponent : Int) (digits : Nat) (scale : Int) : Bool :=
  let left := digits * powerOf 10 scale * powerOf 2 (2 - exponent)
  let unit := powerOf 2 (exponent - 2) * powerOf 10 (-scale)
  let narrow := mantissa == powerOf 2 52 && -1074 < exponent
  let low := (if narrow then 4 * mantissa - 1 else 4 * mantissa - 2) * unit
  let high := (4 * mantissa + 2) * unit
  if mantissa % 2 == 0 then low ≤ left && left ≤ high else low < left && left < high

/-- The shortest decimal `digits * 10 ^ scale` that rounds to `mantissa * 2 ^ exponent`, and of
those the nearest to it. -/
def shortest (mantissa : Nat) (exponent : Int) : Nat × Int :=
  let num := mantissa * powerOf 2 exponent
  let den := powerOf 2 (-exponent)
  let point : Int := (decimalLength (num * powerOf 10 400 / den) : Int) - 400
  let atLength (length : Nat) : Option (Nat × Int) :=
    let scale := point - length
    let scaledNum := num * powerOf 10 (-scale)
    let scaledDen := den * powerOf 10 scale
    let below := scaledNum / scaledDen
    match roundsTo mantissa exponent below scale, roundsTo mantissa exponent (below + 1) scale with
    | true, true => some (roundedQuotient scaledNum scaledDen, scale)
    | true, false => some (below, scale)
    | false, true => some (below + 1, scale)
    | false, false => none
  ((List.range 17).findSome? fun length => atLength (length + 1)).getD (0, 0)

/-- Positional from a ten-thousandth up to sixteen digits before the point, and then with at
least one digit after it; with an exponent of at least two digits otherwise. -/
def decimalText (digits : List Char) (point : Int) : List Char :=
  if -4 < point && point ≤ 0 then
    ['0', '.'] ++ List.replicate (-point).toNat '0' ++ digits
  else if 0 < point && point ≤ 16 then
    let width := point.toNat
    let whole := digits.take width ++ List.replicate (width - digits.length) '0'
    let fraction := digits.drop width
    whole ++ '.' :: (if fraction.isEmpty then ['0'] else fraction)
  else
    let exponent := Nat.toDigits 10 (point - 1).natAbs
    let padded := if exponent.length < 2 then '0' :: exponent else exponent
    let fraction := if digits.length ≤ 1 then [] else '.' :: digits.drop 1
    digits.take 1 ++ fraction ++ 'e' :: (if point ≤ 0 then '-' else '+') :: padded

def toText : Binary64 → String
  | nan => "nan"
  | infinite negative => if negative then "-inf" else "inf"
  | finite negative mantissa exponent =>
    let body :=
      if mantissa == 0 then ['0', '.', '0']
      else
        let (digits, scale) := shortest mantissa exponent
        let written := Nat.toDigits 10 digits
        let significant := (written.reverse.dropWhile (· == '0')).reverse
        decimalText significant (written.length + scale)
    String.ofList (if negative then '-' :: body else body)

end Binary64

end ComponentLint
