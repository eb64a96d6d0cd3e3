import ShellPrompt.Number.Integer
import ShellPrompt.Text.Split
import ShellPrompt.Number.Binary64

/-!
Reading decimal fractions: digits with an optional point and an optional exponent, or a word for
infinity or for a value that is no number. Two readers differ in what they allow around that:
`readLoose` takes digits of every script and single underscores between digits, `readPlain` ASCII
digits alone.
-/

namespace ShellPrompt.Binary64

open Text

/-- An unsigned decimal: digits, and the power of ten of the last one. -/
structure Decimal where
  digits : Nat
  exponent : Int
deriving DecidableEq, Repr

/-- The value of an ASCII digit. -/
def asciiDigit? (c : Char) : Option Nat := if c.isDigit then some (c.toNat - 48) else none

/-- Splits off a run of ASCII digits. -/
def splitDigits (text : List Char) : List Nat × List Char :=
  ((text.takeWhile Char.isDigit).filterMap asciiDigit?, text.dropWhile Char.isDigit)

/-- Reads `e` or `E`, a sign if there is one, and digits, to the end. -/
def readExponent? : List Char → Option Int
  | [] => some 0
  | c :: rest =>
    if c = 'e' ∨ c = 'E' then
      let (negative, rest) := Numeral.splitSign rest
      let (digits, rest) := splitDigits rest
      if digits.isEmpty || !rest.isEmpty then none
      else
        let n : Int := Numeral.ofDigits 10 digits
        some (if negative then -n else n)
    else none

/-- Reads an unsigned decimal; at least one digit stands before or after the point. -/
def readDecimal? (text : List Char) : Option Decimal := do
  let (whole, rest) := splitDigits text
  let (part, rest) := match rest with
    | '.' :: rest => splitDigits rest
    | _ => ([], rest)
  if whole.isEmpty && part.isEmpty then none
  let exponent ← readExponent? rest
  return ⟨Numeral.ofDigits 10 (whole ++ part), exponent - part.length⟩

/-- Reads a number with ASCII digits and no white space around. -/
def readPlain? (text : List Char) : Option Binary64 :=
  let (negative, body) := Numeral.splitSign text
  let word := body.map Char.toLower
  if word = "inf".toList ∨ word = "infinity".toList then some (infinite negative)
  else if word = "nan".toList then some nan
  else (readDecimal? body).map fun d => ofDecimal negative d.digits d.exponent

/-- Every script's digits written in ASCII. -/
def asciiDigits (text : List Char) : List Char :=
  text.map fun c => match digitValue? c with
    | some d => Char.ofNat (48 + d)
    | none => c

/-- Takes out the underscores if each of them stands between two digits. -/
def dropUnderscores? (text : List Char) : Option (List Char) :=
  let separates := fun (before after : Option Char) =>
    (before.map Char.isDigit).getD false && (after.map Char.isDigit).getD false
  let befores := none :: text.map some
  let afters := (text.drop 1).map some ++ [none]
  let placed := (befores.zip (text.zip afters)).all fun (before, c, after) =>
    c != '_' || separates before after
  if placed then some (text.filter (· != '_')) else none

/-- Reads a number with white space around, digits of any script, and underscores between
digits. -/
def readLoose? (text : String) : Option Binary64 := do
  let ascii := asciiDigits (stripWhile Numeral.isMargin text.toList)
  readPlain? (← dropUnderscores? ascii)

end ShellPrompt.Binary64
