/-!
Double-precision binary numbers, exactly. A finite number is a mantissa below `2 ^ 53` times a
power of two; arithmetic is done on whole numbers and rounded once, to the nearest number and to an
even mantissa where two are equally near.
-/

namespace ShellPrompt

/-- A double-precision number. A finite one is `mantissa * 2 ^ exponent`, with its sign apart. -/
inductive Binary64 where
  | nan
  | infinite (negative : Bool)
  | finite (negative : Bool) (mantissa : Nat) (exponent : Int)
deriving DecidableEq, Repr

namespace Binary64

/-- The least exponent, that of the subnormal numbers. -/
def minExponent : Int := -1074

/-- The greatest exponent of a finite number. -/
def maxExponent : Int := 971

/-- A quotient rounded to a whole number, a half to the even neighbour. -/
def roundHalfEven (num den : Nat) : Nat :=
  let q := num / den
  let twice := 2 * (num % den)
  if twice < den then q
  else if den < twice then q + 1
  else if q % 2 = 0 then q else q + 1

/-- `num / den` divided by `2 ^ exponent`, as a fraction. -/
def scale (num den : Nat) (exponent : Int) : Nat × Nat :=
  if 0 ≤ exponent then (num, den * Nat.pow 2 exponent.toNat)
  else (num * Nat.pow 2 (-exponent).toNat, den)

/-- The greatest power of two that is at most `num / den`, for positive numbers. -/
def binaryOrder (num den : Nat) : Int :=
  let guess : Int := (num.log2 : Int) - (den.log2 : Int)
  let (n, d) := scale num den guess
  if d ≤ n then guess else guess - 1

/-- The number nearest to a fraction. -/
def ofFraction (negative : Bool) (num den : Nat) : Binary64 :=
  if num = 0 then finite negative 0 minExponent
  else
    let exponent := max minExponent (binaryOrder num den - 52)
    let (n, d) := scale num den exponent
    let mantissa := roundHalfEven n d
    let (mantissa, exponent) :=
      if mantissa = Nat.pow 2 53 then (Nat.pow 2 52, exponent + 1) else (mantissa, exponent)
    if maxExponent < exponent then infinite negative else finite negative mantissa exponent

/-- The number nearest to a whole number. -/
def ofInt (n : Int) : Binary64 := ofFraction (n < 0) n.natAbs 1

/-- The number nearest to `digits * 10 ^ exponent`. Exponents far outside the range are not
worked out: the result is then zero or infinite. -/
def ofDecimal (negative : Bool) (digits : Nat) (exponent : Int) : Binary64 :=
  let places : Int := (digits.log2 : Int) / 3 + 1
  if digits = 0 then finite negative 0 minExponent
  else if exponent + places < -350 then finite negative 0 minExponent
  else if 310 < exponent then infinite negative
  else if 0 ≤ exponent then ofFraction negative (digits * Nat.pow 10 exponent.toNat) 1
  else ofFraction negative digits (Nat.pow 10 (-exponent).toNat)

/-- The value of a finite number as a fraction with sign. -/
def toFraction? : Binary64 → Option (Int × Nat)
  | finite negative mantissa exponent =>
    let signed : Int := if negative then -mantissa else mantissa
    if 0 ≤ exponent then some (signed * Nat.pow 2 exponent.toNat, 1)
    else some (signed, Nat.pow 2 (-exponent).toNat)
  | _ => none

/-- The whole number that a number is, if it is one. -/
def toInt? (x : Binary64) : Option Int :=
  match x.toFraction? with
  | some (num, den) => if num % den = 0 then some (num / den) else none
  | none => none

/-- Whether a number is greater than zero. -/
def isPositive : Binary64 → Bool
  | nan => false
  | infinite negative => !negative
  | finite negative mantissa _ => !negative && mantissa != 0

/-- Whether two numbers are equal as numbers: zeros of both signs are, and `nan` equals nothing. -/
def same : Binary64 → Binary64 → Bool
  | nan, _ | _, nan => false
  | infinite a, infinite b => a == b
  | finite a m e, finite b n f => (m == 0 && n == 0) || (a == b && m == n && e == f)
  | _, _ => false

/-- The opposite number. -/
def neg : Binary64 → Binary64
  | nan => nan
  | infinite negative => infinite (!negative)
  | finite negative mantissa exponent => finite (!negative) mantissa exponent

/-- The sum of two numbers, rounded once. -/
def add (x y : Binary64) : Binary64 :=
  match x, y with
  | nan, _ | _, nan => nan
  | infinite a, infinite b => if a = b then infinite a else nan
  | infinite a, _ => infinite a
  | _, infinite b => infinite b
  | finite a m e, finite b n f =>
    let low := min e f
    let left : Int := m * Nat.pow 2 (e - low).toNat
    let right : Int := n * Nat.pow 2 (f - low).toNat
    let sum := (if a then -left else left) + (if b then -right else right)
    if sum = 0 then finite (a && b) 0 minExponent
    else if 0 ≤ low then ofFraction (sum < 0) (sum.natAbs * Nat.pow 2 low.toNat) 1
    else ofFraction (sum < 0) sum.natAbs (Nat.pow 2 (-low).toNat)

/-- A number times a whole number that is not negative, which is itself rounded first. -/
def mulNat (x : Binary64) (factor : Nat) : Binary64 :=
  match x, ofInt factor with
  | nan, _ | _, nan => nan
  | infinite a, finite _ n _ => if n = 0 then nan else infinite a
  | infinite a, infinite _ => infinite a
  | finite a m _, infinite _ => if m = 0 then nan else infinite a
  | finite a m e, finite _ n f =>
    let low := e + f
    if 0 ≤ low then ofFraction a (m * n * Nat.pow 2 low.toNat) 1
    else ofFraction a (m * n) (Nat.pow 2 (-low).toNat)

end Binary64

end ShellPrompt
