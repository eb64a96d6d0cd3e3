import ShellPrompt.Data.Moment
import ShellPrompt.Number.Shortest
import ShellPrompt.Text.Literal

/-!
Structured data as it is read from configuration files: scalars, lists and mappings. The keys of a
mapping are scalars. Two keys are one when they are equal as values: truth values are the numbers
zero and one, and a whole number equals the fraction of the same value. What is no number is always
the same value, which is one with itself although it equals nothing.
-/

namespace ShellPrompt

/-- A value without parts. -/
inductive Scalar where
  | null
  | bool (value : Bool)
  | int (value : Int)
  | float (value : Binary64)
  | text (value : String)
  | bytes (value : List UInt8)
  | day (value : Day)
  | moment (value : Moment)
  /-- what is left out of a collection that holds itself -/
  | ellipsis
deriving DecidableEq, Repr

/-- A value. -/
inductive Data where
  | scalar (value : Scalar)
  | list (items : List Data)
  | tuple (items : List Data)
  | set (items : List Scalar)
  | map (entries : List (Scalar × Data))
deriving Inhabited

/-- The entries of a mapping, in order. -/
abbrev Entries := List (Scalar × Data)

namespace Scalar

/-- The whole number that a scalar is equal to, if there is one. -/
def whole? : Scalar → Option Int
  | bool value => some (if value then 1 else 0)
  | int value => some value
  | float value => value.toInt?
  | _ => none

/-- Whether two scalars are one as keys. -/
def same (a b : Scalar) : Bool :=
  match a.whole?, b.whole? with
  | some m, some n => m == n
  | none, none =>
    match a, b with
    | float x, float y => x.same y || (x == .nan && y == .nan)
    | moment x, moment y => x.same y
    | _, _ => a == b
  | _, _ => false

/-- The text of a scalar as a part of a larger value. -/
def literal : Scalar → String
  | null => "None"
  | bool value => if value then "True" else "False"
  | int value => toString value
  | float value => value.text
  | text value => Text.quoted value
  | bytes value => Text.quotedBytes value
  | ellipsis => "..."
  | day d => "datetime.date(" ++ toString d.year ++ ", " ++ toString d.month ++ ", " ++
      toString d.day ++ ")"
  | moment m =>
    let seconds :=
      if m.microsecond ≠ 0 then [m.second, m.microsecond]
      else if m.second ≠ 0 then [m.second] else []
    let parts := [m.day.year, m.day.month, m.day.day, m.hour, m.minute] ++ seconds
    "datetime.datetime(" ++ Text.join ", " (parts.map toString) ++ zone m.offset ++ ")"
where
  /-- The clock of a point in time. -/
  zone : Option Int → String
    | none => ""
    | some 0 => ", tzinfo=datetime.timezone.utc"
    | some minutes => ", tzinfo=datetime.timezone(" ++ Moment.spanLiteral minutes ++ ")"

/-- The text of a scalar by itself: a text is itself. -/
def display : Scalar → String
  | text value => value
  | day d => d.text
  | moment m => m.text
  | other => other.literal

end Scalar

namespace Data

/-- The text of a tuple's items; a single one is followed by a comma. -/
def tupleText : List String → String
  | [item] => "(" ++ item ++ ",)"
  | items => "(" ++ Text.join ", " items ++ ")"

/-- The text of a set's items. -/
def setText : List String → String
  | [] => "set()"
  | items => "\x7b" ++ Text.join ", " items ++ "\x7d"

mutual

/-- The text of a value as a part of a larger one. -/
def literal : Data → String
  | scalar value => value.literal
  | list items => "[" ++ Text.join ", " (literals items) ++ "]"
  | tuple items => tupleText (literals items)
  | set items => setText (items.map Scalar.literal)
  | map entries => "\x7b" ++ Text.join ", " (entryLiterals entries) ++ "\x7d"
termination_by structural value => value

/-- The texts of values. -/
def literals : List Data → List String
  | [] => []
  | item :: rest => literal item :: literals rest
termination_by structural items => items

/-- The texts of entries. -/
def entryLiterals : List (Scalar × Data) → List String
  | [] => []
  | entry :: rest => entryLiteral entry :: entryLiterals rest
termination_by structural entries => entries

/-- The text of an entry. -/
def entryLiteral : Scalar × Data → String
  | (key, value) => key.literal ++ ": " ++ literal value
termination_by structural entry => entry

end

/-- The text of a value by itself. -/
def display : Data → String
  | scalar value => value.display
  | other => other.literal

end Data

namespace Entries

/-- The value of a key. -/
def get? (entries : Entries) (key : Scalar) : Option Data :=
  (entries.find? fun entry => entry.1.same key).map Prod.snd

/-- Changes the value of a key, or adds it at the end. A key that is there keeps its place and its
spelling. -/
def alter (key : Scalar) (change : Option Data → Data) : Entries → Entries
  | [] => [(key, change none)]
  | (k, v) :: rest =>
    if k.same key then (k, change (some v)) :: rest else (k, v) :: alter key change rest

/-- Enters a value for a key. -/
def enter (key : Scalar) (value : Data) (entries : Entries) : Entries :=
  alter key (fun _ => value) entries

/-- The entries of a list of pairs, entered in order. -/
def ofPairs (pairs : List (Scalar × Data)) : Entries :=
  pairs.foldl (fun entries pair => enter pair.1 pair.2 entries) []

end Entries

end ShellPrompt
