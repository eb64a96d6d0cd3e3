import ShellPrompt.Number.Binary64

/-!
The shortest decimal form of a double-precision number: the fewest digits that read back as the
same number, and of the decimals with so few digits the nearest, or the one that ends in an even
digit where two are equally near. It is written positionally from
`0.0001` up to sixteen digits before the point, and with an exponent outside that range.
-/

namespace ShellPrompt.Binary64

/-- `n * 10 ^ place` compared with a fraction: whether it is at most that. -/
def decimalLe (n : Nat) (place : Int) (num den : Nat) : Bool :=
  if 0 ≤ place then n * Nat.pow 10 place.toNat * den ≤ num
  else n * den ≤ num * Nat.pow 10 (-place).toNat

/-- A fraction compared with `n * 10 ^ place`: whether it is at most that. -/
def leDecimal (num den n : Nat) (place : Int) : Bool :=
  if 0 ≤ place then num ≤ n * Nat.pow 10 place.toNat * den
  else num * Nat.pow 10 (-place).toNat ≤ n * den

/-- The greatest power of ten that is at most `num / den`. -/
def decimalOrder (num den : Nat) : Int :=
  let guess := binaryOrder num den * 30103 / 100000
  if decimalLe 1 (guess + 1) num den then guess + 1
  else if decimalLe 1 guess num den then guess
  else guess - 1

/-- The decimals that round to a number form an interval, held here with the number itself over a
common denominator; the ends belong to it when the mantissa is even. -/
structure Neighbourhood where
  low : Nat
  middle : Nat
  high : Nat
  den : Nat
  closed : Bool

/-- The interval of decimals that round to `mantissa * 2 ^ exponent`. -/
def neighbourhood (mantissa : Nat) (exponent : Int) : Neighbourhood :=
  let below := if mantissa = Nat.pow 2 52 ∧ minExponent < exponent then 1 else 2
  let up := Nat.pow 2 (exponent - 2).toNat
  { low := (4 * mantissa - below) * up
    middle := 4 * mantissa * up
    high := (4 * mantissa + 2) * up
    den := Nat.pow 2 (2 - exponent).toNat
    closed := mantissa % 2 = 0 }

/-- Whether `n * 10 ^ place` rounds to the number in the middle. -/
def Neighbourhood.has (near : Neighbourhood) (n : Nat) (place : Int) : Bool :=
  if near.closed then leDecimal near.low near.den n place && decimalLe n place near.high near.den
  else !decimalLe n place near.low near.den && !leDecimal near.high near.den n place

/-- The multiple of `10 ^ place` next to the middle that lies in the interval. -/
def Neighbourhood.pick (near : Neighbourhood) (place : Int) : Option Nat :=
  let (num, den) :=
    if 0 ≤ place then (near.middle, near.den * Nat.pow 10 place.toNat)
    else (near.middle * Nat.pow 10 (-place).toNat, near.den)
  let n := num / den
  let nearer := roundHalfEven num den
  let farther := if nearer = n then n + 1 else n
  [nearer, farther].find? (near.has · place)

/-- The shortest decimal, as digits and the place of the last one. -/
def shortest (mantissa : Nat) (exponent : Int) : Nat × Int :=
  let near := neighbourhood mantissa exponent
  let order := decimalOrder near.middle near.den
  let tries := (List.range 17).filterMap fun count =>
    let place := order - (count : Nat)
    (near.pick place).map (·, place)
  tries.headD (0, 0)

/-- Decimal digits without the zeros at the end. -/
def significant (digits : List Char) : List Char := (digits.reverse.dropWhile (· == '0')).reverse

/-- The text of digits with the point after the first `point` of them. -/
def decimalText (digits : List Char) (point : Int) : List Char :=
  if -4 < point ∧ point ≤ 16 then
    if point ≤ 0 then '0' :: '.' :: List.replicate (-point).toNat '0' ++ digits
    else
      let whole := digits.take point.toNat
      let zeros := List.replicate (point.toNat - digits.length) '0'
      let part := digits.drop point.toNat
      whole ++ zeros ++ '.' :: (if part.isEmpty then ['0'] else part)
  else
    let power := point - 1
    let places := (toString power.natAbs).toList
    let padded := List.replicate (2 - places.length) '0' ++ places
    let mark := if power < 0 then '-' else '+'
    let head := digits.take 1
    let part := digits.drop 1
    head ++ (if part.isEmpty then [] else '.' :: part) ++ 'e' :: mark :: padded

/-- The shortest text that reads back as the number. -/
def text : Binary64 → String
  | nan => "nan"
  | infinite negative => if negative then "-inf" else "inf"
  | finite negative mantissa exponent =>
    let body :=
      if mantissa = 0 then ['0', '.', '0']
      else
        let (n, place) := shortest mantissa exponent
        let all := (toString n).toList
        decimalText (significant all) (all.length + place)
    String.ofList (if negative then '-' :: body else body)

end ShellPrompt.Binary64
