import ShellPrompt.Yaml.Place

/-!
The texts of scalars. A plain scalar stands without marks and ends where something else begins; a
quoted one stands between quotation marks; a block scalar is set off by indentation. All may run
over several lines, and plain, quoted and folded ones join their lines.
-/

namespace ShellPrompt.Yaml

open Place

/-- Line ends with the spaces and tabs around them, up to the next text; a document may not begin
or end there. -/
def quotedBreaks (place : Place) : Except Fault (List Char × Place) :=
  if place.atDocumentMark then .error .malformed
  else
    let inner := place.skip fun c => c == ' ' || c == '\t'
    let (mark, behind) := inner.lineBreak
    if mark ≠ [] ∧ behind.rest.length < place.rest.length then do
      let (marks, last) ← quotedBreaks behind
      return (mark ++ marks, last)
    else .ok ([], inner)
termination_by place.rest.length

/-- How a line end in the middle of a text reads: as a space, unless empty lines follow. -/
def foldBreak (mark breaks : List Char) : List Char :=
  (if mark ≠ ['\n'] then mark else if breaks.isEmpty then [' '] else []) ++ breaks

/-- What an escape of one letter stands for. -/
def shortEscape? (c : Char) : Option Char :=
  [('0', '\x00'), ('a', '\x07'), ('b', '\x08'), ('t', '\t'), ('\t', '\t'), ('n', '\n'),
    ('v', '\x0b'), ('f', '\x0c'), ('r', '\r'), ('e', '\x1b'), (' ', ' '), ('"', '"'),
    ('\\', '\\'), ('/', '/'), ('N', '\x85'), ('_', '\xa0'), ('L', '\u2028'),
    ('P', '\u2029')].lookup c

/-- How many hexadecimal digits follow the letter of a longer escape. -/
def escapeDigits? (c : Char) : Option Nat := [('x', 2), ('u', 4), ('U', 8)].lookup c

/-- Whether a character is a hexadecimal digit. -/
def isHexDigit (c : Char) : Bool := c.isDigit || ('a' ≤ c && c ≤ 'f') || ('A' ≤ c && c ≤ 'F')

/-- The number that hexadecimal digits stand for. -/
def hexNumber (digits : List Char) : Nat :=
  Numeral.ofDigits 16 (digits.filterMap Numeral.hexValue?)

/-- The character of a number. -/
def characterOf (code : Nat) : Except Fault Char :=
  if 0x7FFFFFFF < code then .error .characterTooLarge
  else if 0x10FFFF < code then .error .characterOutOfRange
  else if code.isValidChar then .ok (Char.ofNat code)
  else .error .surrogate

/-- Reads an escape behind its backslash: what it stands for, and the place behind it. -/
def escape (place : Place) : Except Fault (List Char × Place) :=
  let c := place.next
  match shortEscape? c, escapeDigits? c with
  | some meaning, _ => .ok ([meaning], place.step)
  | none, some count =>
    let digits := place.step.rest.take count
    if digits.length = count ∧ digits.all isHexDigit then do
      let meaning ← characterOf (hexNumber digits)
      return ([meaning], place.advance (count + 1))
    else .error .malformed
  | none, none => if isBreak c then quotedBreaks place.lineBreak.2 else .error .malformed

/-- Reads on to the closing quotation mark. -/
def quotedFrom (double : Bool) (place : Place) : Except Fault (List Char × Place) :=
  match part with
  | .error fault => .error fault
  | .ok none => .ok ([], place.step)
  | .ok (some (text, behind)) =>
    if behind.rest.length < place.rest.length then do
      let (texts, last) ← quotedFrom double behind
      return (text ++ texts, last)
    else .error .malformed
termination_by place.rest.length
where
  /-- The next part of the text, none at the closing quotation mark. -/
  part : Except Fault (Option (List Char × Place)) :=
    let c := place.next
    if !double && c == '\'' && place.peek 1 == '\'' then .ok (some (['\''], place.advance 2))
    else if c == (if double then '"' else '\'') then .ok none
    else if double && c == '\\' then (escape place.step).map some
    else if c == '\x00' then .error .malformed
    else if isGap c then
      let spaces := place.run fun c => c == ' ' || c == '\t'
      let behind := place.advance spaces.length
      let (mark, start) := behind.lineBreak
      if mark.isEmpty then .ok (some (spaces, behind))
      else do
        let (breaks, last) ← quotedBreaks start
        return some (foldBreak mark breaks, last)
    else .ok (some ([c], place.step))

/-- Whether a plain scalar ends before these characters. -/
def endsPlain (flow : Bool) : List Char → Bool
  | [] => true
  | c :: rest =>
    isGap c ||
      (c == ':' && (isGap (rest.headD '\x00') ||
        (flow && [',', '[', ']', '{', '}'].contains (rest.headD '\x00')))) ||
      (flow && [',', '?', '[', ']', '{', '}'].contains c)

/-- The characters of a plain scalar up to the next gap. -/
def plainRun (flow : Bool) : List Char → List Char
  | [] => []
  | c :: rest => if endsPlain flow (c :: rest) then [] else c :: plainRun flow rest

/-- Empty lines and indentation, none if a document begins or ends there. -/
def plainBreaks (place : Place) : Option (List Char) × Place :=
  if place.atDocumentMark then (none, place)
  else
    let inner := place.skip (· == ' ')
    let (mark, behind) := inner.lineBreak
    if mark ≠ [] ∧ behind.rest.length < place.rest.length then
      let (marks, last) := plainBreaks behind
      (marks.map (mark ++ ·), last)
    else (some [], inner)
termination_by place.rest.length

/-- What stands between two parts of a plain scalar, and whether that was the end of a line. -/
def plainGap (place : Place) : List Char × Place × Bool :=
  let spaces := place.run (· == ' ')
  let behind := place.advance spaces.length
  let (mark, start) := behind.lineBreak
  if mark.isEmpty then (spaces, behind, false)
  else match plainBreaks start with
    | (none, last) => ([], last, true)
    | (some breaks, last) => (foldBreak mark breaks, last, true)

/-- Reads a plain scalar: its text, the place behind it, and whether that is on a new line. -/
def plainFrom (flow : Bool) (indent : Int) (place : Place) : List Char × Place × Bool :=
  let text := plainRun flow place.rest
  let (gap, behind, broken) := plainGap (place.advance text.length)
  if gap.isEmpty || behind.next == '#' || (!flow && behind.column < indent) ||
      endsPlain flow behind.rest then
    (text, behind, broken)
  else if behind.rest.length < place.rest.length then
    let (more, last, broken) := plainFrom flow indent behind
    (text ++ gap ++ more, last, broken)
  else (text, behind, broken)
termination_by place.rest.length

/-- What becomes of the line ends behind a block scalar. -/
inductive Chomping where
  | clip | strip | keep
deriving DecidableEq

/-- The value of a digit that gives an indentation. -/
def indentDigit? (c : Char) : Option Nat := if c.isDigit then some (c.toNat - 48) else none

/-- Reads what follows the mark of a block scalar: its chomping and indentation. -/
def blockHeader (place : Place) : Except Fault (Chomping × Option Nat × Place) := do
  let chomping := fun c => if c == '+' then some Chomping.keep
    else if c == '-' then some Chomping.strip else none
  let (chomp, digit, behind) := match chomping place.next, indentDigit? place.next with
    | some chomp, _ =>
      match indentDigit? (place.peek 1) with
      | some digit => (chomp, some digit, place.advance 2)
      | none => (chomp, none, place.step)
    | none, some digit =>
      match chomping (place.peek 1) with
      | some chomp => (chomp, some digit, place.advance 2)
      | none => (Chomping.clip, some digit, place.step)
    | none, none => (Chomping.clip, none, place)
  if digit == some 0 || !isSpaceOrEnd behind.next then throw .malformed
  let last := behind.skipComment
  if !isBreakOrEnd last.next then throw .malformed
  return (chomp, digit, last.lineBreak.2)

/-- Moves over indentation up to a column. -/
def skipIndent (indent : Nat) (place : Place) : Place :=
  place.advance (min (indent - place.column) (place.run (· == ' ')).length)

/-- Empty lines, with indentation up to a column. -/
def blockBreaks (indent : Nat) (place : Place) : List Char × Place :=
  let inner := skipIndent indent place
  let (mark, behind) := inner.lineBreak
  if mark ≠ [] ∧ behind.rest.length < place.rest.length then
    let (marks, last) := blockBreaks indent behind
    (mark ++ marks, last)
  else ([], inner)
termination_by place.rest.length

/-- Empty lines and the greatest column that their indentation and that of the next line reach. -/
def blockIndentation (place : Place) : List Char × Nat × Place :=
  let inner := place.skip (· == ' ')
  let column := if inner.index = place.index then 0 else inner.column
  let (mark, behind) := inner.lineBreak
  if mark ≠ [] ∧ behind.rest.length < place.rest.length then
    let (marks, deepest, last) := blockIndentation behind
    (mark ++ marks, max column deepest, last)
  else ([], column, inner)
termination_by place.rest.length

/-- Reads the lines of a block scalar: the text, its last line end, the empty lines behind it, and
the place behind those. -/
def blockLines (folded : Bool) (indent : Nat) (breaks : List Char) (place : Place) :
    List Char × List Char × List Char × Place :=
  if place.column ≠ indent ∨ place.rest = [] then ([], [], breaks, place)
  else
    let line := place.run (!isBreakOrEnd ·)
    let (mark, start) := (place.advance line.length).lineBreak
    let (after, behind) := blockBreaks indent start
    let inset := fun c => c == ' ' || c == '\t'
    if behind.column = indent ∧ behind.rest ≠ [] ∧ behind.rest.length < place.rest.length then
      let joint :=
        if folded && mark == ['\n'] && !inset place.next && !inset behind.next then
          if after.isEmpty then [' '] else []
        else mark
      let (text, last, tail, stop) := blockLines folded indent after behind
      (breaks ++ line ++ joint ++ text, last, tail, stop)
    else (breaks ++ line, mark, after, behind)
termination_by place.rest.length

/-- Reads a block scalar behind its mark. -/
def blockFrom (folded : Bool) (indent : Int) (place : Place) :
    Except Fault (List Char × Place) := do
  let (chomp, digit, start) ← blockHeader place
  let least := (max (indent + 1) 1).toNat
  let (breaks, column, start) := match digit with
    | some digit =>
      let column := least + digit - 1
      let (breaks, start) := blockBreaks column start
      (breaks, column, start)
    | none =>
      let (breaks, deepest, start) := blockIndentation start
      (breaks, max least deepest, start)
  let (text, mark, tail, stop) := blockLines folded column breaks start
  let ending := match chomp with
    | .strip => []
    | .clip => mark
    | .keep => mark ++ tail
  return (text ++ ending, stop)

end ShellPrompt.Yaml
