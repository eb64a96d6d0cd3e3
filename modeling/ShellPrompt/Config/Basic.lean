import ShellPrompt.Data.Merge
import ShellPrompt.Number.DecimalText
import ShellPrompt.Style.Table
import ShellPrompt.Template.Token

/-!
The configuration: a template, whether there are colors, how long git may take, and styles of the
user's own. It is checked field by field, and all problems are told together; values that are
written as another kind are taken where their meaning is clear.
-/

namespace ShellPrompt

/-- The settings of a prompt. -/
structure Config where
  template : String
  color : Bool
  gitTimeout : Binary64
  styles : Dictionary String String

/-- Why the name of a style cannot be used. -/
inductive StyleNameError where
  | notIdentifier (name : String)
  | reserved (name : String)
deriving DecidableEq, Repr

/-- What is wrong with the name. -/
def StyleNameError.message : StyleNameError → String
  | notIdentifier name => "style name '" ++ name ++ "' must contain only letters and underscores"
  | reserved name => "style name '" ++ name ++ "' is reserved"

/-- Why the value of a field is refused. -/
inductive FieldError where
  | notText
  | notDecodable
  | notTruth
  | unclearTruth
  | notNumber
  | unclearNumber
  | notPositive
  | styleName (error : StyleNameError)
  | styleSpec (error : SpecError)
deriving DecidableEq, Repr

/-- What is wrong with the value. -/
def FieldError.message : FieldError → String
  | notText => "Input should be a valid string"
  | notDecodable => "Input should be a valid string, unable to parse raw data as a unicode string"
  | notTruth => "Input should be a valid boolean"
  | unclearTruth => "Input should be a valid boolean, unable to interpret input"
  | notNumber => "Input should be a valid number"
  | unclearNumber => "Input should be a valid number, unable to parse string as a number"
  | notPositive => "Input should be greater than 0"
  | styleName error => "Value error, " ++ error.message
  | styleSpec error => "Value error, " ++ error.message

/-- A field and what is wrong with it. -/
structure Problem where
  field : String
  error : FieldError
deriving DecidableEq, Repr

/-- Why data is no configuration. -/
inductive ConfigError where
  /-- a key at the top level is no text -/
  | keyNotText
  /-- the styles are no mapping -/
  | stylesNotMapping
  | invalid (problems : List Problem)
deriving DecidableEq, Repr

namespace Config

/-- The names of the fields in the order in which problems are told. -/
def templateField : String := "template"

/-- The field that says whether there are colors. -/
def colorField : String := "color"

/-- The field that says how many seconds git may take. -/
def timeoutField : String := "git_timeout"

/-- The field of the user's own styles. -/
def stylesField : String := "styles"

/-- The template of a configuration that has none. -/
def defaultTemplate : String := "\x7bcwd\x7d \x7bgit_branch\x7d $ "

/-- The settings of a configuration that says nothing. -/
def defaults : Entries :=
  [(.text colorField, .scalar (.bool true)),
    (.text timeoutField, .scalar (.float (.ofInt 2))),
    (.text stylesField, .map [])]

/-- A text of bytes. -/
def decode? (bytes : List UInt8) : Option String := String.fromUTF8? bytes.toByteArray

/-- Accepts a template. -/
def templateOf : Data → Except FieldError String
  | .scalar (.text value) => .ok value
  | .scalar (.bytes value) =>
    match decode? value with
    | some text => .ok text
    | none => .error .notDecodable
  | _ => .error .notText

/-- The words that stand for a truth value, in lower case. -/
def truthWord? (word : String) : Option Bool :=
  if ["1", "on", "t", "true", "y", "yes"].contains word then some true
  else if ["0", "off", "f", "false", "n", "no"].contains word then some false
  else none

/-- Accepts zero and one as truth values; a number that no machine word holds is of the wrong
kind. -/
def truthOfInt (n : Int) : Except FieldError Bool :=
  if n = 0 then .ok false
  else if n = 1 then .ok true
  else if -0x8000000000000000 ≤ n ∧ n < 0x8000000000000000 then .error .unclearTruth
  else .error .notTruth

/-- A truth value written as a word in any letter case. -/
def truthOfText (text : String) : Except FieldError Bool :=
  match truthWord? (String.ofList (text.toList.map Char.toLower)) with
  | some value => .ok value
  | none => .error .unclearTruth

/-- Accepts a truth value, or a number or word that stands for one. -/
def truthOf : Data → Except FieldError Bool
  | .scalar (.bool value) => .ok value
  | .scalar (.text value) => truthOfText value
  | .scalar (.bytes value) =>
    match decode? value with
    | some text => truthOfText text
    | none => .error .unclearTruth
  | .scalar (.int value) => truthOfInt value
  | .scalar (.float value) =>
    match value.toInt? with
    | some n => truthOfInt n
    | none => .error .notTruth
  | _ => .error .notTruth

/-- A number written without underscores that lead, trail or follow one another. -/
def withoutUnderscores? (text : List Char) : Option (List Char) :=
  if text.head? = some '_' ∨ text.getLast? = some '_' ∨
      (text.zip (text.drop 1)).any fun pair => pair == ('_', '_') then none
  else some (text.filter (· != '_'))

/-- A number written as a text, with white space around it or underscores in it. -/
def numberOfText (text : String) : Except FieldError Binary64 :=
  let isMargin := fun c => Numeral.isMargin c
  match Binary64.readPlain? (Text.stripWhile isMargin text.toList) with
  | some x => .ok x
  | none =>
    match (withoutUnderscores? text.toList).bind Binary64.readPlain? with
    | some x => .ok x
    | none => .error .unclearNumber

/-- Accepts a number, or a truth value or text that stands for one. -/
def numberOf : Data → Except FieldError Binary64
  | .scalar (.float value) => .ok value
  | .scalar (.bool value) => .ok (.ofInt (if value then 1 else 0))
  | .scalar (.int value) =>
    match Binary64.ofInt value with
    | .infinite _ => .error .notNumber
    | x => .ok x
  | .scalar (.text value) => numberOfText value
  | .scalar (.bytes value) =>
    match decode? value with
    | some text => numberOfText text
    | none => .error .unclearNumber
  | _ => .error .notNumber

/-- Accepts a number of seconds, which has to be more than none. -/
def timeoutOf (value : Data) : Except FieldError Binary64 := do
  let seconds ← numberOf value
  if seconds.isPositive then return seconds else throw .notPositive

/-- Whether an identifier cannot name a style, because it means something else in a template: the
reset, a word or component, or what begins like a conditional or its condition. -/
def isReserved (name : String) : Bool :=
  name == StyleTable.resetName || reservedWords.contains name ||
    (ComponentName.ofIdentifier? name).isSome || "if".toList.isPrefixOf name.toList ||
    Condition.environmentMark.toList.isPrefixOf name.toList

/-- Accepts the name of a style. -/
def checkStyleName (name : String) : Except StyleNameError Unit :=
  if !isIdentifier name then .error (.notIdentifier name)
  else if isReserved name then .error (.reserved name)
  else .ok ()

/-- Adds a style by its name and the description of its rendition, both as they are written. -/
def addStyle (styles : Dictionary String String) (entry : Scalar × Data) :
    Except FieldError (Dictionary String String) := do
  let name := entry.1.display
  let spec := entry.2.display
  (checkStyleName name).mapError .styleName
  let _ ← (Rendition.ofSpec spec).mapError .styleSpec
  return styles.insert name spec

/-- Accepts styles by name. -/
def stylesOf (entries : Entries) : Except FieldError (Dictionary String String) :=
  entries.foldlM addStyle .empty

/-- The styles of a configuration; none may be given by saying nothing. -/
def styleEntries? : Data → Option Entries
  | .map entries => some entries
  | .scalar .null => some []
  | _ => none

/-- The value of a field. -/
def fieldValue? (entries : Entries) (field : String) : Option Data := entries.get? (.text field)

/-- Checks a field: a field that is missing has a default value. -/
def check {α : Type} (entries : Entries) (field : String) (default : α)
    (accept : Data → Except FieldError α) : Except Problem α :=
  match fieldValue? entries field with
  | some value => (accept value).mapError fun error => ⟨field, error⟩
  | none => .ok default

/-- The problem of a field that was checked. -/
def problem? {α : Type} : Except Problem α → Option Problem
  | .error problem => some problem
  | .ok _ => none

/-- Whether a key is a text. -/
def isText : Scalar → Bool
  | .text _ => true
  | _ => false

/-- Checks all fields. -/
def ofMerged (entries : Entries) : Except ConfigError Config :=
  if !entries.all fun entry => isText entry.1 then .error .keyNotText
  else match styleEntries? ((fieldValue? entries stylesField).getD (.map [])) with
    | none => .error .stylesNotMapping
    | some styles =>
      let template := check entries templateField defaultTemplate templateOf
      let color := check entries colorField true truthOf
      let timeout := check entries timeoutField (.ofInt 2) timeoutOf
      let styles := (stylesOf styles).mapError (Problem.mk stylesField)
      match template, color, timeout, styles with
      | .ok template, .ok color, .ok gitTimeout, .ok styles =>
        .ok { template, color, gitTimeout, styles }
      | template, color, timeout, styles =>
        .error (.invalid ((problem? template).toList ++ (problem? color).toList ++
          (problem? timeout).toList ++ (problem? styles).toList))

/-- The configuration that settings describe, on top of the defaults. -/
def ofData (settings : Entries) : Except ConfigError Config :=
  ofMerged (Entries.merge defaults settings)

/-- The style keywords of a configuration: the built-in ones and the user's own. -/
def styleTable (config : Config) : Except SpecError StyleTable :=
  StyleTable.ofSpecs config.styles

end Config

namespace ConfigError

/-- What is wrong with a configuration whose fields were checked. -/
def message : ConfigError → String
  | invalid problems =>
    "invalid configuration: " ++
      Text.join "; " (problems.map fun p => p.field ++ ": " ++ p.error.message)
  | _ => ""

end ConfigError

end ShellPrompt
