import ShellPrompt.Parser.Cursor

/-!
Parsers: functions that read something from a place in a text and say where they stopped, or fail.
A parser that fails has read nothing, so alternatives can be tried in order from the same place.
-/

namespace ShellPrompt

/-- Reads a value from a place in a text, or fails. -/
def Parser (α : Type) : Type := Cursor → Option (α × Cursor)

namespace Parser

variable {α β : Type}

/-- Reads exactly the given text. -/
def tag (literal : String) : Parser String := fun cursor =>
  if literal.toList.isPrefixOf cursor.rest then
    some (literal, cursor.advance literal.toList.length)
  else none

/-- Reads the characters up to the first that fails a test. -/
def takeWhile (test : Char → Bool) : Parser String := fun cursor =>
  let run := cursor.rest.takeWhile test
  some (String.ofList run, cursor.advance run.length)

/-- Fails unless the value passes a test. -/
def verify (p : Parser α) (test : α → Bool) : Parser α := fun cursor =>
  match p cursor with
  | some (value, next) => if test value then some (value, next) else none
  | none => none

/-- Reads one or more characters that pass a test. -/
def takeWhile1 (test : Char → Bool) : Parser String := (takeWhile test).verify (· ≠ "")

/-- Reads one or more characters other than the given ones. -/
def noneOf (chars : List Char) : Parser String := takeWhile1 fun c => !chars.contains c

/-- Changes the value. -/
def map (f : α → β) (p : Parser α) : Parser β := fun cursor =>
  match p cursor with
  | some (value, next) => some (f value, next)
  | none => none

/-- Changes the value, or fails where it has no image. -/
def filterMap (f : α → Option β) (p : Parser α) : Parser β := fun cursor =>
  match p cursor with
  | some (value, next) => (f value).map (·, next)
  | none => none

/-- Reads one thing after another. -/
def both (p : Parser α) (q : Parser β) : Parser (α × β) := fun cursor =>
  match p cursor with
  | some (first, middle) =>
    match q middle with
    | some (second, next) => some ((first, second), next)
    | none => none
  | none => none

/-- Reads both and keeps the second value. -/
def preceded (p : Parser α) (q : Parser β) : Parser β := (both p q).map Prod.snd

/-- Reads both and keeps the first value. -/
def terminated (p : Parser α) (q : Parser β) : Parser α := (both p q).map Prod.fst

/-- Reads what the first parser reads that does not fail. -/
def firstOf : List (Parser α) → Parser α
  | [] => fun _ => none
  | p :: ps => fun cursor =>
    match p cursor with
    | some result => some result
    | none => firstOf ps cursor

/-- Reads with all parsers in turn. -/
def all : List (Parser α) → Parser (List α)
  | [] => fun cursor => some ([], cursor)
  | p :: ps => (both p (all ps)).map fun (value, values) => value :: values

/-- Reads a value if there is one. -/
def optional (p : Parser α) : Parser (Option α) := fun cursor =>
  match p cursor with
  | some (value, next) => some (some value, next)
  | none => some (none, cursor)

/-- Reads again and again until the parser fails or comes no further. -/
def repeatFrom (p : Parser α) (cursor : Cursor) : List α × Cursor :=
  match p cursor with
  | some (value, next) =>
    if next.rest.length < cursor.rest.length then
      let (values, last) := repeatFrom p next
      (value :: values, last)
    else ([], cursor)
  | none => ([], cursor)
termination_by cursor.rest.length

/-- Reads as many values as there are. -/
def many (p : Parser α) : Parser (List α) := fun cursor => some (repeatFrom p cursor)

/-- Reads as many values as there are, and at least one. -/
def many1 (p : Parser α) : Parser (List α) := (many p).verify fun values => !values.isEmpty

end Parser

end ShellPrompt
