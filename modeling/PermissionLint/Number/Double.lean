/-
Binary floating-point numbers of double precision, exactly.

A finite number is a natural number below 2^53 times a power of two that is not below 2^-1074.  A
decimal is read as the nearest such number, a tie going to the even one; it is written with the
fewest digits that are read back as the same number, and with those nearest to it.
-/

namespace PermissionLint.Number

/-- A number of double precision. -/
inductive Double where
  | nan
  | infinity (negative : Bool)
  /-- The number `mantissa * 2 ^ exponent`, with its sign. -/
  | finite (negative : Bool) (mantissa : Nat) (exponent : Int)
  deriving DecidableEq, Repr

namespace Double

/-- A quotient rounded to the nearest natural number, a tie going to the even one. -/
def roundDiv (num den : Nat) : Nat :=
  let q := num / den
  let r := num % den
  if 2 * r < den then q
  else if den < 2 * r then q + 1
  else if q % 2 == 0 then q else q + 1

/-- `num / den * 2 ^ -exponent`, as numerator and denominator. -/
def scaled (num den : Nat) (exponent : Int) : Nat × Nat :=
  match exponent with
  | .ofNat e => (num, den * Nat.pow 2 e)
  | .negSucc e => (num * Nat.pow 2 (e + 1), den)

/-- The number nearest to a positive quotient. -/
def ofQuotient (negative : Bool) (num den : Nat) : Double :=
  -- the exponent that brings the quotient to 53 binary digits, or the least one
  let guess : Int := (Nat.log2 num : Int) - (Nat.log2 den : Int) - 52
  let fits (e : Int) : Bool := let (n, d) := scaled num den e; Nat.pow 2 52 ≤ n / d
  let e := max (-1074) (if fits guess then guess else guess - 1)
  let (n, d) := scaled num den e
  let m := roundDiv n d
  let (m, e) := if m == Nat.pow 2 53 then (Nat.pow 2 52, e + 1) else (m, e)
  if 971 < e then infinity negative else finite negative m e

/-- The number nearest to `digits * 10 ^ exponent`. -/
def ofDecimal (negative : Bool) (digits : Nat) (exponent : Int) : Double :=
  let size : Int := (Nat.toDigits 10 digits).length
  if digits == 0 || size + exponent < -330 then finite negative 0 (-1074)
  else if 310 < size + exponent then infinity negative
  else
    match exponent with
    | .ofNat e => ofQuotient negative (digits * Nat.pow 10 e) 1
    | .negSucc e => ofQuotient negative digits (Nat.pow 10 (e + 1))

/-! ## The shortest decimal -/

/-- The decimal `digits * 10 ^ exponent` is read as the given number. -/
def readsBack (mantissa : Nat) (exponent : Int) (digits : Nat) (exp10 : Int) : Bool :=
  ofDecimal false digits exp10 == finite false mantissa exponent

/-- The number as a quotient. -/
def quotient (mantissa : Nat) (exponent : Int) : Nat × Nat :=
  match exponent with
  | .ofNat e => (mantissa * Nat.pow 2 e, 1)
  | .negSucc e => (mantissa, Nat.pow 2 (e + 1))

/-- The power of ten of the first digit of a positive quotient. -/
def leading (num den : Nat) : Int :=
  let guess : Int := (Nat.toDigits 10 num).length - (Nat.toDigits 10 den).length
  let atLeast (k : Int) : Bool :=
    match k with
    | .ofNat k => den * Nat.pow 10 k ≤ num
    | .negSucc k => den ≤ num * Nat.pow 10 (k + 1)
  if atLeast guess then guess else guess - 1

/-- The decimal with the given number of digits that is nearest to a number, if it or its neighbour
on the other side is read back. -/
def candidate (mantissa : Nat) (exponent : Int) (count : Nat) : Option (Nat × Int) :=
  let (num, den) := quotient mantissa exponent
  let exp10 : Int := leading num den - (count - 1 : Int)
  let (n, d) := match exp10 with
    | .ofNat e => (num, den * Nat.pow 10 e)
    | .negSucc e => (num * Nat.pow 10 (e + 1), den)
  let low := n / d
  let near := roundDiv n d
  let far := if near == low then low + 1 else low
  if readsBack mantissa exponent near exp10 then some (near, exp10)
  else if readsBack mantissa exponent far exp10 then some (far, exp10)
  else none

/-- The fewest digits, and their power of ten, that are read back as a positive number. -/
def shortest (mantissa : Nat) (exponent : Int) : Nat × Int :=
  ((List.range 17).findSome? fun n => candidate mantissa exponent (n + 1)).getD (mantissa, 0)

/-- Digits without the zeros at their end. -/
def dropZeros (digits : List Char) : List Char := (digits.reverse.dropWhile (· == '0')).reverse

/-- How numbers are written: positionally from 10^-4 up to below 10^16, with a fraction in any case,
and with a bare exponent otherwise. -/
def render : Double → String
  | nan => "NaN"
  | infinity negative => if negative then "-inf" else "inf"
  | finite negative mantissa exponent =>
    let sign := if negative then "-" else ""
    if mantissa == 0 then sign ++ "0.0"
    else
      let (digits, exp10) := shortest mantissa exponent
      let text := Nat.toDigits 10 digits
      let point : Int := text.length + exp10
      let text := dropZeros text
      let body : List Char :=
        if point ≤ -4 || 16 < point then
          let mantissaText := match text with
            | c :: [] => [c]
            | c :: cs => c :: '.' :: cs
            | [] => ['0']
          mantissaText ++ 'e' :: (toString (point - 1)).toList
        else
          match point with
          | .negSucc n => "0.".toList ++ List.replicate (n + 1) '0' ++ text
          | .ofNat 0 => "0.".toList ++ text
          | .ofNat n =>
            if text.length ≤ n then text ++ List.replicate (n - text.length) '0' ++ ".0".toList
            else text.take n ++ '.' :: text.drop n
      sign ++ String.ofList body

end Double

end PermissionLint.Number
