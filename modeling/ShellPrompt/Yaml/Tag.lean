import ShellPrompt.Text.Split

/-!
Tags say what kind of value a node is. A plain scalar without a tag has the tag that its text looks
like: an empty one is no value, `yes` a truth value, `12` or `1:30` a number, and so on.
-/

namespace ShellPrompt.Yaml

/-- The kinds of values. -/
inductive Tag where
  | null | bool | int | float | binary | timestamp | orderedMap | pairs | set | text | sequence
  | mapping | merge | value | unknown
deriving DecidableEq, Repr

namespace Tag

/-- What the names of the tags of all known kinds start with. -/
def standard : String := "tag:yaml.org,2002:"

/-- The names of the tags of known kinds, without their common start. -/
def names : List (String × Tag) :=
  [("null", null), ("bool", bool), ("int", int), ("float", float), ("binary", binary),
    ("timestamp", timestamp), ("omap", orderedMap), ("pairs", pairs), ("set", set),
    ("str", text), ("seq", sequence), ("map", mapping), ("merge", merge), ("value", value)]

/-- The kind that a tag names. -/
def ofName (name : String) : Tag :=
  ((names.find? fun known => standard ++ known.1 = name).map Prod.snd).getD unknown

/-- Whether a character is a digit or an underscore. -/
def isDigitOrBar (c : Char) : Bool := c.isDigit || c == '_'

/-- Takes a sign off the front. -/
def dropSign : List Char → List Char
  | '-' :: rest => rest
  | '+' :: rest => rest
  | chars => chars

/-- Digits and underscores, with a digit in front. -/
def isDigits : List Char → Bool
  | c :: rest => c.isDigit && rest.all isDigitOrBar
  | [] => false

/-- Minutes or seconds: one or two digits, up to 59. -/
def isSixtieth : List Char → Bool
  | [a] => a.isDigit
  | [a, b] => '0' ≤ a && a ≤ '5' && b.isDigit
  | _ => false

/-- A number and at least one sixtieth behind it, with colons between them. -/
def isSexagesimal (isFirst : List Char → Bool) (text : List Char) : Bool :=
  match Text.fieldRuns ':' text with
  | first :: second :: rest => isFirst first && (second :: rest).all isSixtieth
  | _ => false

/-- A whole number that does not start with a zero. -/
def isPositiveDigits (text : List Char) : Bool := isDigits text && text.head? != some '0'

/-- Whether a text looks like a whole number. -/
def isInt (text : List Char) : Bool :=
  let body := dropSign text
  let within := fun (test : Char → Bool) (digits : List Char) =>
    !digits.isEmpty && digits.all fun c => test c || c == '_'
  match body with
  | ['0'] => true
  | '0' :: 'b' :: digits => within (fun c => c == '0' || c == '1') digits
  | '0' :: 'x' :: digits =>
    within (fun c => c.isDigit || ('a' ≤ c && c ≤ 'f') || ('A' ≤ c && c ≤ 'F')) digits
  | '0' :: digits => within (fun c => '0' ≤ c && c ≤ '7') digits
  | _ => isPositiveDigits body || isSexagesimal isPositiveDigits body

/-- Whether a text is empty or an exponent with its sign. -/
def isExponent : List Char → Bool
  | [] => true
  | e :: sign :: digits =>
    (e == 'e' || e == 'E') && (sign == '-' || sign == '+') && !digits.isEmpty &&
      digits.all Char.isDigit
  | _ => false

/-- Whether a text looks like a fraction with a point. -/
def isFloat (text : List Char) : Bool :=
  let body := dropSign text
  let whole := body.takeWhile (· != '.')
  let words := fun (names : List String) (t : List Char) => names.contains (String.ofList t)
  match body.dropWhile (· != '.') with
  | '.' :: part =>
    let exponent := part.dropWhile isDigitOrBar
    (isDigits whole && isExponent exponent) ||
      (isSexagesimal isDigits whole && part.all isDigitOrBar) ||
      (whole.isEmpty && words ["inf", "Inf", "INF"] part) ||
      (text.head? == some '.' && (words ["nan", "NaN", "NAN"] part ||
        ((part.head?.map Char.isDigit).getD false && isExponent exponent)))
  | _ => false

/-- Splits off one or two digits. -/
def shortNumber? : List Char → Option (Nat × List Char)
  | a :: b :: rest =>
    if a.isDigit then
      if b.isDigit then some ((a.toNat - 48) * 10 + (b.toNat - 48), rest)
      else some (a.toNat - 48, b :: rest)
    else none
  | [a] => if a.isDigit then some (a.toNat - 48, []) else none
  | [] => none

/-- Splits off exactly two digits. -/
def twoDigits? : List Char → Option (Nat × List Char)
  | a :: b :: rest =>
    if a.isDigit && b.isDigit then some ((a.toNat - 48) * 10 + (b.toNat - 48), rest) else none
  | _ => none

/-- Splits off a certain character. -/
def expect (c : Char) : List Char → Option (List Char)
  | d :: rest => if d = c then some rest else none
  | [] => none

/-- The parts of a day and, if there is one, of a time of day. The fraction of a second is kept as
digits, and the offset as a sign, hours and minutes. -/
structure MomentParts where
  year : Nat
  month : Nat
  day : Nat
  time : Option (Nat × Nat × Nat × List Char) := none
  offset : Option (Bool × Nat × Nat) := none

/-- Reads the offset of a clock: `Z`, or a sign, hours and minutes; nothing may follow. -/
def offset? : List Char → Option (Option (Bool × Nat × Nat))
  | [] => some none
  | ['Z'] => some (some (false, 0, 0))
  | sign :: rest => do
    if sign != '-' && sign != '+' then none
    let (hours, rest) ← shortNumber? rest
    match rest with
    | [] => return some (sign == '-', hours, 0)
    | _ =>
      let (minutes, rest) ← twoDigits? (← expect ':' rest)
      if rest.isEmpty then return some (sign == '-', hours, minutes) else none

/-- Reads the day: a year of four digits, a month and a day. -/
def day? (text : List Char) : Option (MomentParts × List Char) := do
  let (century, rest) ← twoDigits? text
  let (years, rest) ← twoDigits? rest
  let (month, rest) ← shortNumber? (← expect '-' rest)
  let (day, rest) ← shortNumber? (← expect '-' rest)
  return ({ year := century * 100 + years, month, day }, rest)

/-- Reads a day and a time of day if there is one. -/
def moment? (text : List Char) : Option MomentParts := do
  let (parts, rest) ← day? text
  if rest.isEmpty then return parts
  let isSpace := fun c => c == ' ' || c == '\t'
  let rest ← match rest with
    | c :: tail =>
      if c == 'T' || c == 't' then some tail
      else if isSpace c then some (tail.dropWhile isSpace) else none
    | [] => none
  let (hour, rest) ← shortNumber? rest
  let (minute, rest) ← twoDigits? (← expect ':' rest)
  let (second, rest) ← twoDigits? (← expect ':' rest)
  let (fraction, rest) := match rest with
    | '.' :: tail => (tail.takeWhile Char.isDigit, tail.dropWhile Char.isDigit)
    | _ => ([], rest)
  let zone := rest.dropWhile isSpace
  if zone.isEmpty && !rest.isEmpty then none
  return { parts with time := some (hour, minute, second, fraction), offset := ← offset? zone }

/-- Whether a text looks like a day or a point in time; a day by itself has all its digits. -/
def isTimestamp (text : List Char) : Bool :=
  match moment? text with
  | some parts => parts.time.isSome || text.length == 10
  | none => false

/-- The words for truth values. -/
def truthWords : List String :=
  ["yes", "Yes", "YES", "no", "No", "NO", "true", "True", "TRUE", "false", "False", "FALSE",
    "on", "On", "ON", "off", "Off", "OFF"]

/-- The kind of a line of text. -/
def ofLine (line : List Char) : Tag :=
  let is := fun (words : List String) => words.contains (String.ofList line)
  if is truthWords then bool
  else if isFloat line then float
  else if isInt line then int
  else if is ["<<"] then merge
  else if is ["~", "null", "Null", "NULL"] then null
  else if isTimestamp line then timestamp
  else if is ["="] then value
  else if is ["!", "&", "*"] then unknown
  else .text

/-- The kind that a plain scalar looks like; a line end behind it does not count. -/
def ofPlain (text : String) : Tag :=
  if text = "" then null
  else
    let chars := text.toList
    ofLine (if chars.getLast? = some '\n' then chars.dropLast else chars)

end Tag

end ShellPrompt.Yaml
