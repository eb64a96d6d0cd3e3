import ShellPrompt.Yaml.Scalars

/-!
Lexemes of YAML. Besides what is written, there are lexemes for what indentation says: where a
block begins and ends. That something was the key of a mapping shows only at the colon behind it,
so the lexemes for a key and for the mapping are put in front of it when the colon is read.
-/

namespace ShellPrompt.Yaml

/-- A line that says something about the documents that follow. -/
inductive Directive where
  | version (major : Nat)
  | tagPrefix (handle meaning : String)
  | other

/-- The smallest parts of a YAML text. -/
inductive Lexeme where
  | directive (directive : Directive)
  | documentStart
  | documentEnd
  | blockSequenceStart
  | blockMappingStart
  | blockEnd
  | flowSequenceStart
  | flowSequenceEnd
  | flowMappingStart
  | flowMappingEnd
  | blockEntry
  | flowEntry
  | key
  | value
  | alias (name : String)
  | anchor (name : String)
  | tag (handle : Option String) (suffix : String)
  | scalar (text : String) (plain : Bool)
  | fault (fault : Fault)

/-- A place where a key may have begun. -/
structure PossibleKey where
  level : Nat
  number : Nat
  required : Bool
  place : Place

/-- How far a text has been read into lexemes. `level` counts the open flow collections, `indent` is
the column of the innermost block and `indents` those around it. -/
structure Lexing where
  place : Place
  lexemes : Array Lexeme := #[]
  level : Nat := 0
  indent : Int := -1
  indents : List Int := []
  allowKey : Bool := true
  keys : List PossibleKey := []
  done : Bool := false

namespace Lexing

/-- A step that may fail. -/
abbrev Result := Except Fault Lexing

/-- Adds a lexeme and moves to a place. -/
def emit (s : Lexing) (lexeme : Lexeme) (place : Place) : Lexing :=
  { s with lexemes := s.lexemes.push lexeme, place }

/-- Forgets possible keys that a test picks out; none of them may be required. -/
def dropKeys (s : Lexing) (test : PossibleKey → Bool) : Result :=
  if s.keys.any fun k => test k && k.required then .error .malformed
  else .ok { s with keys := s.keys.filter (!test ·) }

/-- Forgets possible keys that lie on another line or too far back. -/
def dropStaleKeys (s : Lexing) : Result :=
  s.dropKeys fun k => k.place.line != s.place.line || 1024 < s.place.index - k.place.index

/-- Forgets the possible key of the current level. -/
def dropKey (s : Lexing) : Result := s.dropKeys (·.level == s.level)

/-- Notes that a key may begin here. -/
def noteKey (s : Lexing) : Result :=
  if s.allowKey then do
    let required := s.level == 0 && s.indent == (s.place.column : Int)
    let dropped ← s.dropKey
    return { dropped with keys := ⟨s.level, s.lexemes.size, required, s.place⟩ :: dropped.keys }
  else .ok s

/-- Ends the blocks that begin to the right of a column. -/
def unwind (s : Lexing) (column : Int) : Lexing :=
  if s.level ≠ 0 then s
  else
    let all := s.indent :: s.indents
    let inner := all.takeWhile fun indent => decide (column < indent)
    match all.drop inner.length with
    | indent :: indents =>
      { s with
        indent, indents
        lexemes := s.lexemes ++ (inner.map fun _ => Lexeme.blockEnd).toArray }
    | [] => s

/-- Whether a block that begins at a column would be a new one. -/
def isDeeper (s : Lexing) (column : Nat) : Bool := s.indent < (column : Int)

/-- Begins a block at a column. -/
def openBlock (s : Lexing) (column : Nat) : Lexing :=
  { s with indents := s.indent :: s.indents, indent := column }

/-- Begins a block here if it would be a new one. -/
def openHere (s : Lexing) (start : Lexeme) : Lexing :=
  if s.isDeeper s.place.column then (s.openBlock s.place.column).emit start s.place else s

/-- Moves to the next lexeme, over spaces, comments and line ends. A new line may begin with a
key. -/
def toNext (s : Lexing) : Lexing :=
  let start := if s.place.index == 0 && s.place.next == '\ufeff' then s.place.step else s.place
  let behind := start.skipComment
  let (mark, next) := behind.lineBreak
  if mark ≠ [] ∧ next.rest.length < s.place.rest.length then
    toNext { s with place := next, allowKey := s.allowKey || s.level == 0 }
  else { s with place := behind }
termination_by s.place.rest.length

/-- The end of the text. -/
def readEnd (s : Lexing) : Result := do
  return { ← (s.unwind (-1)).dropKey with allowKey := false, keys := [], done := true }

/-- Whether a character belongs to names of anchors and handles of tags. -/
def isNameChar (c : Char) : Bool := c.isAlphanum || c == '-' || c == '_'

/-- Reads the handle of a tag: the characters between two exclamation marks, or one such mark. -/
def readHandle (place : Place) : Except Fault (String × Place) :=
  if place.next != '!' then .error .malformed
  else if place.peek 1 == ' ' then .ok ("!", place.step)
  else
    let name := place.step.run isNameChar
    let behind := place.step.advance name.length
    if behind.next == '!' then .ok (String.ofList ('!' :: name ++ ['!']), behind.step)
    else .error .malformed

/-- Whether a character may stand in the written form of a tag. -/
def isTagChar (c : Char) : Bool :=
  c.isAlphanum || "-;/?:@&=+$,_.!~*'()[]%".toList.contains c

/-- Undoes the escapes of a tag: each stands for a byte of UTF-8. -/
def tagBytes : List Char → Option (List UInt8)
  | [] => some []
  | '%' :: a :: b :: rest =>
    if isHexDigit a && isHexDigit b then
      (tagBytes rest).map (UInt8.ofNat (hexNumber [a, b]) :: ·)
    else none
  | '%' :: _ => none
  | c :: rest => (tagBytes rest).map (UInt8.ofNat c.toNat :: ·)

/-- Reads the written form of a tag or of the start of tags. -/
def readTagText (place : Place) : Except Fault (String × Place) :=
  let written := place.run isTagChar
  match tagBytes written with
  | some (byte :: bytes) =>
    match String.fromUTF8? (byte :: bytes).toByteArray with
    | some text => .ok (text, place.advance written.length)
    | none => .error .malformed
  | _ => .error .malformed

/-- Reads a whole number of a version. -/
def readVersionNumber (place : Place) : Except Fault (Nat × Place) :=
  let digits := place.run Char.isDigit
  if digits.isEmpty then .error .malformed
  else match Numeral.read 10 (String.ofList digits) with
    | .ok n => .ok (n.toNat, place.advance digits.length)
    | .error e => .error (.numeral e)

/-- Reads the version that a directive asks for. -/
def readVersion (place : Place) : Except Fault (Directive × Place) := do
  let (major, behind) ← readVersionNumber (place.skip (· == ' '))
  if behind.next != '.' then throw .malformed
  let (_, last) ← readVersionNumber behind.step
  if !isSpaceOrEnd last.next then throw .malformed
  return (.version major, last)

/-- Reads what a handle stands for in tags. -/
def readTagPrefix (place : Place) : Except Fault (Directive × Place) := do
  let (handle, behind) ← readHandle (place.skip (· == ' '))
  if behind.next != ' ' then throw .malformed
  let (meaning, last) ← readTagText (behind.skip (· == ' '))
  if !isSpaceOrEnd last.next then throw .malformed
  return (.tagPrefix handle meaning, last)

/-- Reads a directive. -/
def readDirective (s : Lexing) : Result := do
  let s := { ← (s.unwind (-1)).dropKey with allowKey := false }
  let name := s.place.step.run isNameChar
  let behind := s.place.step.advance name.length
  if name.isEmpty || !isSpaceOrEnd behind.next then throw .malformed
  let (directive, last) ←
    if name = "YAML".toList then readVersion behind
    else if name = "TAG".toList then readTagPrefix behind
    else pure (Directive.other, behind.skip (!isBreakOrEnd ·))
  let last := last.skipComment
  if !isBreakOrEnd last.next then throw .malformed
  return s.emit (.directive directive) last.lineBreak.2

/-- Reads a mark between documents. -/
def readDocumentMark (s : Lexing) (lexeme : Lexeme) : Result := do
  let s ← (s.unwind (-1)).dropKey
  return { s.emit lexeme (s.place.advance 3) with allowKey := false }

/-- Reads the start of a flow collection, which may be a key. -/
def readFlowStart (s : Lexing) (lexeme : Lexeme) : Result := do
  let s ← s.noteKey
  return { s.emit lexeme s.place.step with level := s.level + 1, allowKey := true }

/-- Reads the end of a flow collection. -/
def readFlowEnd (s : Lexing) (lexeme : Lexeme) : Result := do
  let s ← s.dropKey
  return { s.emit lexeme s.place.step with level := s.level - 1, allowKey := false }

/-- Reads what separates the entries of a flow collection. -/
def readFlowEntry (s : Lexing) : Result := do
  let s ← s.dropKey
  return { s.emit .flowEntry s.place.step with allowKey := true }

/-- Reads the mark of an entry of a block sequence. -/
def readBlockEntry (s : Lexing) : Result := do
  if s.level == 0 && !s.allowKey then throw .malformed
  let s ← (if s.level == 0 then s.openHere .blockSequenceStart else s).dropKey
  return { s.emit .blockEntry s.place.step with allowKey := true }

/-- Reads the mark of a key. -/
def readKey (s : Lexing) : Result := do
  if s.level == 0 && !s.allowKey then throw .malformed
  let s ← (if s.level == 0 then s.openHere .blockMappingStart else s).dropKey
  return { s.emit .key s.place.step with allowKey := s.level == 0 }

/-- Reads the mark of a value. If a key was possible, it has been one. -/
def readValue (s : Lexing) : Result :=
  match s.keys.find? (·.level == s.level) with
  | some key =>
    let opens := s.level == 0 && s.isDeeper key.place.column
    let begun := if opens then s.openBlock key.place.column else s
    let marks := if opens then [Lexeme.blockMappingStart, .key] else [.key]
    let lexemes := s.lexemes.toList.take key.number ++ marks ++ s.lexemes.toList.drop key.number
    let s := { begun with
      lexemes := lexemes.toArray, keys := s.keys.filter (·.level != s.level), allowKey := false }
    .ok (s.emit .value s.place.step)
  | none => do
    if s.level == 0 && !s.allowKey then throw .malformed
    let s ← (if s.level == 0 then s.openHere .blockMappingStart else s).dropKey
    return { s.emit .value s.place.step with allowKey := s.level == 0 }

/-- Reads the name of an anchor behind its mark. -/
def readName (place : Place) : Except Fault (String × Place) :=
  let name := place.run isNameChar
  let behind := place.advance name.length
  if !name.isEmpty && (isGap behind.next || "?:,]\x7d%@\x60".toList.contains behind.next) then
    .ok (String.ofList name, behind)
  else .error .malformed

/-- Reads an anchor or an alias, which may be a key. -/
def readAnchor (s : Lexing) (lexeme : String → Lexeme) : Result := do
  let s ← s.noteKey
  let (name, behind) ← readName s.place.step
  return { s.emit (lexeme name) behind with allowKey := false }

/-- Whether a tag has a handle with a name: a second exclamation mark before the next space. -/
def hasHandle (place : Place) : Bool := (place.step.run (!isSpaceOrEnd ·)).contains '!'

/-- Reads a tag: its handle, if it has one, and the rest. -/
def readTagParts (place : Place) : Except Fault (Option String × String × Place) := do
  if place.peek 1 == '<' then
    let (suffix, behind) ← readTagText (place.advance 2)
    if behind.next != '>' then throw .malformed
    return (none, suffix, behind.step)
  else if isGap (place.peek 1) then return (none, "!", place.step)
  else
    let (handle, behind) ← if hasHandle place then readHandle place else pure ("!", place.step)
    let (suffix, last) ← readTagText behind
    return (some handle, suffix, last)

/-- Reads a tag, which may be a key. -/
def readTag (s : Lexing) : Result := do
  let s ← s.noteKey
  let (handle, suffix, behind) ← readTagParts s.place
  if !isSpaceOrEnd behind.next then throw .malformed
  return { s.emit (.tag handle suffix) behind with allowKey := false }

/-- Reads a block scalar. -/
def readBlockScalar (s : Lexing) (folded : Bool) : Result := do
  let s ← s.dropKey
  let (text, behind) ← blockFrom folded s.indent s.place.step
  return { s.emit (.scalar (String.ofList text) false) behind with allowKey := true }

/-- Reads a quoted scalar, which may be a key. -/
def readQuoted (s : Lexing) (double : Bool) : Result := do
  let s ← s.noteKey
  let (text, behind) ← quotedFrom double s.place.step
  return { s.emit (.scalar (String.ofList text) false) behind with allowKey := false }

/-- Reads a plain scalar, which may be a key. -/
def readPlain (s : Lexing) : Result := do
  let s ← s.noteKey
  let (text, behind, broken) := plainFrom (s.level != 0) (s.indent + 1) s.place
  return { s.emit (.scalar (String.ofList text) true) behind with allowKey := broken }

/-- Whether a plain scalar may begin here. -/
def atPlain (s : Lexing) : Bool :=
  let c := s.place.next
  let marks := "-?:,[]\x7b\x7d#&*!|>'\"%@\x60".toList
  (!isGap c && !marks.contains c) ||
    (!isGap (s.place.peek 1) && (c == '-' || (s.level == 0 && (c == '?' || c == ':'))))

/-- Reads the lexeme that begins here. -/
def readHere (s : Lexing) : Result :=
  let c := s.place.next
  let apart := isGap (s.place.peek 1)
  if c == '\x00' then s.readEnd
  else if c == '%' && s.place.column == 0 then s.readDirective
  else if s.place.column == 0 && s.place.atMark "---" then s.readDocumentMark .documentStart
  else if s.place.column == 0 && s.place.atMark "..." then s.readDocumentMark .documentEnd
  else if c == '[' then s.readFlowStart .flowSequenceStart
  else if c == '\x7b' then s.readFlowStart .flowMappingStart
  else if c == ']' then s.readFlowEnd .flowSequenceEnd
  else if c == '\x7d' then s.readFlowEnd .flowMappingEnd
  else if c == ',' then s.readFlowEntry
  else if c == '-' && apart then s.readBlockEntry
  else if c == '?' && (s.level != 0 || apart) then s.readKey
  else if c == ':' && (s.level != 0 || apart) then s.readValue
  else if c == '*' then s.readAnchor .alias
  else if c == '&' then s.readAnchor .anchor
  else if c == '!' then s.readTag
  else if c == '|' && s.level == 0 then s.readBlockScalar false
  else if c == '>' && s.level == 0 then s.readBlockScalar true
  else if c == '\'' then s.readQuoted false
  else if c == '"' then s.readQuoted true
  else if s.atPlain then s.readPlain
  else .error .malformed

/-- Reads the next lexeme. -/
def readNext (s : Lexing) : Result := do
  let s ← s.toNext.dropStaleKeys
  (s.unwind s.place.column).readHere

/-- Reads lexemes to the end of the text. Where the text is at fault, the last lexeme says so. -/
def readAll (s : Lexing) : Array Lexeme :=
  match s.readNext with
  | .error fault => s.lexemes.push (.fault fault)
  | .ok next =>
    if next.done then next.lexemes
    else if next.place.rest.length < s.place.rest.length then readAll next
    else s.lexemes.push (.fault .malformed)
termination_by s.place.rest.length

end Lexing

/-- The lexemes of a text. -/
def Lexeme.ofText (text : List Char) : List Lexeme :=
  if text.all isAllowed then (Lexing.readAll { place := { rest := text } }).toList
  else [.fault .malformed]

end ShellPrompt.Yaml
