import ShellPrompt.Style.Color
import ShellPrompt.Text.Split

/-!
A rendition says how text is to look. It is written as words, such as `bold red on white`, and
shown by an escape sequence that lists its parameters.
-/

namespace ShellPrompt

/-- How text is to look: colors and attributes. -/
structure Rendition where
  foreground : Option ColorRef := none
  background : Option ColorRef := none
  attributes : List Attribute := []
deriving DecidableEq, Repr, Inhabited

namespace Rendition

/-- Whether an attribute is on. -/
def has (look : Rendition) (attr : Attribute) : Bool := look.attributes.contains attr

/-- The attributes that are on, in the order of their codes. -/
def attributesInOrder (look : Rendition) : List Attribute := Attribute.all.filter look.has

/-- The parameter of a color that may be missing. -/
def colorParameter (ground : Ground) : Option ColorRef → Except NumeralError (Option String)
  | none => .ok none
  | some color => color.parameter ground

/-- The parameters: attributes first, then foreground and background. -/
def parameters (look : Rendition) : Except NumeralError (List String) := do
  let foreground ← colorParameter .foreground look.foreground
  let background ← colorParameter .background look.background
  return look.attributesInOrder.map (fun a => toString a.code) ++ foreground.toList ++
    background.toList

/-- The escape sequence of a list of parameters, empty if there are none. -/
def sequenceOf : List String → String
  | [] => ""
  | parameters => "\x1b[" ++ Text.join ";" parameters ++ "m"

/-- The escape sequence that switches to a rendition. -/
def sequence (look : Rendition) : Except NumeralError String := look.parameters.map sequenceOf

end Rendition

/-- Why a description of a rendition is refused. -/
inductive SpecError where
  | unknownColor (name spec : String)
  | numeral (error : NumeralError)
deriving DecidableEq, Repr

/-- What is wrong with the description. -/
def SpecError.message : SpecError → String
  | unknownColor name spec => "invalid color '" ++ name ++ "' in '" ++ spec ++ "'"
  | numeral error => error.message

namespace Rendition

/-- The words of a description, in lower case; an underscore separates words like a space. -/
def specWords (spec : String) : List String :=
  Text.words (String.ofList ((Text.toLower spec).toList.map fun c => if c = '_' then ' ' else c))

/-- Whether a word is made of ASCII digits. -/
def isIndexWord (word : String) : Bool := word ≠ "" ∧ word.toList.all Char.isDigit

/-- Accepts the name of a color or an index of the palette. -/
def colorName (spec name : String) : Except SpecError ColorRef :=
  if (paletteIndex? name).isSome then .ok (.named name)
  else if isIndexWord name then
    match Numeral.read 10 name with
    | .ok n => if n ≤ paletteMax then .ok (.named name) else .error (.unknownColor name spec)
    | .error e => .error (.numeral e)
  else .error (.unknownColor name spec)

/-- Whether a word ends the description of a background. -/
def endsBackground (word : String) : Bool := (Attribute.ofWord? word).isSome || word = "on"

/-- The base color that follows the word `bright`. -/
def brightBase? (word : String) (rest : List String) : Option BaseColor :=
  if word = "bright" then rest.head?.bind BaseColor.ofName? else none

/-- Reads the words of a description. An attribute is switched on. The words after `on`, up to an
attribute or another `on`, are the background, the last one that is given. The first color is the
foreground; what comes after it in other places is passed over. -/
def readWords (spec : String) (look : Rendition) : List String → Except SpecError Rendition
  | [] => .ok look
  | word :: rest =>
    match Attribute.ofWord? word with
    | some attr => readWords spec { look with attributes := attr :: look.attributes } rest
    | none =>
      if word = "on" ∧ rest ≠ [] then do
        let background ← colorName spec (Text.join " " (rest.takeWhile (!endsBackground ·)))
        readWords spec { look with background := some background }
          (rest.dropWhile (!endsBackground ·))
      else
        match brightBase? word rest, look.foreground with
        | some base, none =>
          readWords spec { look with foreground := some (.named base.brightName) } rest.tail
        | some _, some _ => readWords spec look rest.tail
        | none, some _ => readWords spec look rest
        | none, none => do
          let color ← colorName spec word
          readWords spec { look with foreground := some color } rest
termination_by words => words.length
decreasing_by
  all_goals simp only [List.length_cons, List.length_tail]
  · omega
  · have := (List.dropWhile_suffix (fun w => !endsBackground w) (l := rest)).length_le
    omega
  all_goals omega

/-- Reads the description of a rendition. -/
def ofSpec (spec : String) : Except SpecError Rendition := readWords spec {} (specWords spec)

end Rendition

end ShellPrompt
