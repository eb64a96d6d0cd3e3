import ShellPrompt.Text.Blank
import ShellPrompt.Text.Digit
import ShellPrompt.Text.Literal

/-!
Whole numbers written in a positional system. A sign may stand in front, white space around, and
single underscores between digits; decimal numbers take digits of every script, and others may bear
the mark of their base, such as `0x`. A decimal number of more than 4300 digits is refused, because
reading it takes time that grows with the square of its length.
-/

namespace ShellPrompt

/-- Why a text is not read as a whole number. -/
inductive NumeralError where
  | malformed (base : Nat) (text : String)
  | tooLong (digits : Nat)
deriving DecidableEq, Repr

namespace NumeralError

/-- What is said about the text; a long one is cut. -/
def message : NumeralError → String
  | malformed base text =>
    "invalid literal for int() with base " ++ toString base ++ ": " ++
      String.ofList ((Text.quoted text).toList.take 200)
  | tooLong digits =>
    "Exceeds the limit (4300 digits) for integer string conversion: value has " ++
      toString digits ++ " digits; use sys.set_int_max_str_digits() to increase the limit"

end NumeralError

namespace Numeral

open Text

/-- The most digits that a decimal number may have. -/
def maxDigits : Nat := 4300

/-- White space that may surround a number: all of it but the four ASCII separators. -/
def isMargin (c : Char) : Bool := isBlank c && !(0x1C ≤ c.toNat && c.toNat ≤ 0x1F)

/-- What a digit or letter is worth in positional systems up to base sixteen. -/
def hexValue? (c : Char) : Option Nat :=
  if 'a' ≤ c ∧ c ≤ 'f' then some (c.toNat - 87)
  else if 'A' ≤ c ∧ c ≤ 'F' then some (c.toNat - 55)
  else digitValue? c

/-- What a digit is worth, if it is one in the given base. -/
def valueIn? (base : Nat) (c : Char) : Option Nat := (hexValue? c).filter (· < base)

/-- The digits of a run in which single underscores may separate digits. -/
def digitsOf? (base : Nat) : List Char → Option (List Nat)
  | [] => none
  | [c] => (valueIn? base c).map ([·])
  | c :: '_' :: rest => do
    let d ← valueIn? base c
    let ds ← digitsOf? base rest
    return d :: ds
  | c :: rest => do
    let d ← valueIn? base c
    let ds ← digitsOf? base rest
    return d :: ds

/-- The number that a list of digits stands for. -/
def ofDigits (base : Nat) (digits : List Nat) : Nat := digits.foldl (fun n d => n * base + d) 0

/-- Takes a sign off the front: whether it was a minus, and what follows. -/
def splitSign : List Char → Bool × List Char
  | '-' :: rest => (true, rest)
  | '+' :: rest => (false, rest)
  | text => (false, text)

/-- The letter that marks a base behind a leading zero. -/
def baseMark? (base : Nat) : Option Char := [(2, 'b'), (8, 'o'), (16, 'x')].lookup base

/-- Takes the mark of the base off the front, and an underscore behind it. -/
def dropBaseMark (base : Nat) : List Char → List Char
  | '0' :: c :: rest =>
    if baseMark? base = some c.toLower then
      match rest with
      | '_' :: rest => rest
      | rest => rest
    else '0' :: c :: rest
  | text => text

/-- Reads a whole number. -/
def read (base : Nat) (text : String) : Except NumeralError Int := do
  let (negative, written) := splitSign (text.toList.dropWhile isMargin)
  let body := dropBaseMark base written
  let inRun := fun c => c == '_' || (valueIn? base c).isSome
  let some digits := digitsOf? base (body.takeWhile inRun)
    | throw (.malformed base text)
  if base == 10 && digits.length > maxDigits then throw (.tooLong digits.length)
  if (body.dropWhile inRun).any (!isMargin ·) then throw (.malformed base text)
  let value : Int := ofDigits base digits
  return if negative then -value else value

end Numeral

end ShellPrompt
