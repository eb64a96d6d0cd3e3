import ShellPrompt.Data.Moment
import ShellPrompt.Number.Integer

/-!
Places in a YAML text, with the line and column that indentation and simple keys depend on, and the
ways in which a text can be at fault.
-/

namespace ShellPrompt.Yaml

/-- Why a text has no value. -/
inductive Fault where
  /-- the text does not follow the rules of YAML -/
  | malformed
  /-- an escape stands for no character -/
  | characterOutOfRange
  /-- an escape stands for a number that no machine word holds -/
  | characterTooLarge
  /-- an escape stands for a surrogate, which no text can hold -/
  | surrogate
  | numeral (error : NumeralError)
  | notFraction (text : String)
  /-- a number without digits -/
  | emptyNumber
  /-- a word that is no truth value is marked as one -/
  | notTruth
  /-- a text that is no point in time is marked as one -/
  | notMoment
  | yearOutOfRange (year : Nat)
  | monthOutOfRange
  | dayOutOfRange
  | hourOutOfRange
  | minuteOutOfRange
  | secondOutOfRange
  | offsetOutOfRange (minutes : Int)
deriving DecidableEq, Repr

/-- What is said about a text at fault; nothing is where the kind of the fault says it all. -/
def Fault.message? : Fault → Option String
  | malformed | characterTooLarge | surrogate | emptyNumber | notTruth | notMoment => none
  | characterOutOfRange => some "chr() arg not in range(0x110000)"
  | numeral error => some error.message
  | notFraction text => some ("could not convert string to float: " ++ Text.quoted text)
  | yearOutOfRange year => some ("year " ++ toString year ++ " is out of range")
  | monthOutOfRange => some "month must be in 1..12"
  | dayOutOfRange => some "day is out of range for month"
  | hourOutOfRange => some "hour must be in 0..23"
  | minuteOutOfRange => some "minute must be in 0..59"
  | secondOutOfRange => some "second must be in 0..59"
  | offsetOutOfRange minutes =>
    some ("offset must be a timedelta strictly between -timedelta(hours=24) and " ++
      "timedelta(hours=24), not " ++ Moment.spanLiteral minutes ++ ".")

/-- What is left of a text, with the number of characters before it and its line and column. -/
structure Place where
  rest : List Char
  index : Nat := 0
  line : Nat := 0
  column : Nat := 0

/-- Whether a character ends a line. -/
def isBreak (c : Char) : Bool :=
  c == '\n' || c == '\r' || c == '\x85' || c == '\u2028' || c == '\u2029'

/-- Whether a line or the text ends; the end of the text reads as a null character. -/
def isBreakOrEnd (c : Char) : Bool := isBreak c || c == '\x00'

/-- Whether there is a space, or a line or the text ends. -/
def isSpaceOrEnd (c : Char) : Bool := isBreakOrEnd c || c == ' '

/-- Whether there is a space or tab, or a line or the text ends. -/
def isGap (c : Char) : Bool := isSpaceOrEnd c || c == '\t'

/-- Whether a text may hold a character. -/
def isAllowed (c : Char) : Bool :=
  let n := c.toNat
  n == 0x9 || n == 0xA || n == 0xD || (0x20 ≤ n && n ≤ 0x7E) || n == 0x85 ||
    (0xA0 ≤ n && n ≤ 0xD7FF) || (0xE000 ≤ n && n ≤ 0xFFFD) || 0x10000 ≤ n

namespace Place

/-- The character that follows after `skip` others, a null character at the end. -/
def peek (place : Place) (skip : Nat) : Char := place.rest.getD skip '\x00'

/-- The next character. -/
def next (place : Place) : Char := place.peek 0

/-- Moves over one character. The mark that may stand before a text takes no column. -/
def step (place : Place) : Place :=
  match place.rest with
  | [] => place
  | c :: rest =>
    if isBreak c && !(c == '\r' && rest.head? == some '\n') then
      ⟨rest, place.index + 1, place.line + 1, 0⟩
    else if c == '\ufeff' then ⟨rest, place.index + 1, place.line, place.column⟩
    else ⟨rest, place.index + 1, place.line, place.column + 1⟩

/-- Moves over characters. -/
def advance (place : Place) : Nat → Place
  | 0 => place
  | count + 1 => place.step.advance count

/-- The next characters that pass a test. -/
def run (place : Place) (test : Char → Bool) : List Char := place.rest.takeWhile test

/-- Moves over the next characters that pass a test. -/
def skip (place : Place) (test : Char → Bool) : Place := place.advance (place.run test).length

/-- Whether certain characters follow. -/
def startsWith (place : Place) (text : String) : Bool := text.toList.isPrefixOf place.rest

/-- Moves over the end of a line: what it reads as, and the place behind it. -/
def lineBreak (place : Place) : List Char × Place :=
  let c := place.next
  if c == '\r' || c == '\n' || c == '\x85' then
    (['\n'], place.advance (if place.startsWith "\r\n" then 2 else 1))
  else if c == '\u2028' || c == '\u2029' then ([c], place.step)
  else ([], place)

/-- Moves over spaces and a comment. -/
def skipComment (place : Place) : Place :=
  let place := place.skip (· == ' ')
  if place.next == '#' then place.skip (!isBreakOrEnd ·) else place

/-- Whether a mark of three characters stands here by itself. -/
def atMark (place : Place) (mark : String) : Bool := place.startsWith mark && isGap (place.peek 3)

/-- Whether a document begins or ends here. -/
def atDocumentMark (place : Place) : Bool := place.atMark "---" || place.atMark "..."

end Place

end ShellPrompt.Yaml
