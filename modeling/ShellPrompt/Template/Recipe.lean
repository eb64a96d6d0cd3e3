import ShellPrompt.Template.Grammar

/-!
Parsers described as data. A recipe names a parser of the grammar or builds one from others; every
recipe yields values of one type, so recipes can be put together freely and read from a file.
-/

namespace ShellPrompt.Template

/-- What a parser built from a recipe reads. -/
inductive Outcome where
  | text (value : String)
  | number (value : Int)
  | absent
  | items (values : List Outcome)
  | component (name : ComponentName)
  | condition (value : Condition)
  | token (value : Token)
deriving Inhabited

namespace Outcome

/-- The number of characters of a text or of items of a list. -/
def length? : Outcome → Option Nat
  | text value => some value.length
  | items values => some values.length
  | _ => none

/-- Whether there is something to an outcome: a text, number or list that is not empty, not zero,
or any other value that is not absent. -/
def isSubstantial : Outcome → Bool
  | text value => value ≠ ""
  | number value => value ≠ 0
  | absent => false
  | items values => !values.isEmpty
  | _ => true

/-- Whether an outcome is something other than a reserved word. -/
def isUnreserved : Outcome → Bool
  | text value => !reservedWords.contains value
  | _ => true

end Outcome

/-- Sets of characters. -/
inductive CharClass where
  | blank
  | identifier
  | among (chars : List Char)

/-- Whether a character belongs to a set. -/
def CharClass.has : CharClass → Char → Bool
  | blank => Text.isBlank
  | identifier => isIdentifierChar
  | among chars => chars.contains

/-- What a value that was read may be turned into. -/
inductive Conversion where
  | length | integer | condition | component

/-- Turns a value into another, if it can be. -/
def Conversion.apply? : Conversion → Outcome → Option Outcome
  | length, value => value.length?.map fun n => .number n
  | integer, .text value => (Numeral.read 10 value).toOption.map .number
  | integer, .number value => some (.number value)
  | condition, .text value => (Condition.ofIdentifier? value).map .condition
  | component, .text value => (ComponentName.ofIdentifier? value).map .component
  | _, _ => none

/-- What a value that was read may have to satisfy. -/
inductive Requirement where
  | substantial | unreserved

/-- Whether a value satisfies a requirement. -/
def Requirement.test : Requirement → Outcome → Bool
  | substantial => Outcome.isSubstantial
  | unreserved => Outcome.isUnreserved

/-- The named parsers of the grammar. -/
inductive Rule where
  | blanks | blanks1 | identifier | static | doubledBrace | optionKey | optionValue | option
  | ifStart | ifCondition | elseTag | endTag | componentName | componentOptions | component
  | style | conditional | elseBranch | token | tokens

/-- A pair of texts as a list of two. -/
def Outcome.ofPair (pair : String × String) : Outcome := .items [.text pair.1, .text pair.2]

/-- The parser of a rule. -/
def Rule.parser (styles : StyleTable) : Rule → Parser Outcome
  | blanks => Template.blanks.map .text
  | blanks1 => Template.blanks1.map .text
  | identifier => Template.identifier.map .text
  | static => Template.static.map .token
  | doubledBrace => Template.doubledBrace.map .token
  | optionKey => Template.optionKey.map .text
  | optionValue => Template.optionValue.map .text
  | option => Template.option.map Outcome.ofPair
  | ifStart => Template.ifStart.map fun (a, b, c) => .items [.text a, .text b, .text c]
  | ifCondition => Template.ifCondition.map .condition
  | elseTag => Template.elseTag.map .text
  | endTag => Template.endTag.map .text
  | componentName => Template.componentName.map .component
  | componentOptions => Template.componentOptions.map fun pairs => .items (pairs.map Outcome.ofPair)
  | component => Template.component.map .token
  | style => (Template.style styles).map .token
  | conditional => (Template.conditional styles).map .token
  | elseBranch => (Template.elseBranch styles).map fun tree => .items (tree.map .token)
  | token => Parser.map .token (Template.token styles)
  | tokens => (Template.tokens styles).map fun tree => .items (tree.map .token)

/-- A description of a parser. -/
inductive Recipe where
  | tag (literal : String)
  | noneOf (chars : List Char)
  | takeWhile (set : CharClass)
  | takeWhile1 (set : CharClass)
  | firstOf (parts : List Recipe)
  | all (parts : List Recipe)
  | many (part : Recipe)
  | many1 (part : Recipe)
  | optional (part : Recipe)
  | preceded (first second : Recipe)
  | terminated (first second : Recipe)
  | convert (part : Recipe) (conversion : Conversion)
  | verify (part : Recipe) (requirement : Requirement)
  | rule (name : Rule)

namespace Recipe

mutual

/-- The parser that a recipe describes. -/
def parser (styles : StyleTable) : Recipe → Parser Outcome
  | tag literal => (Parser.tag literal).map .text
  | noneOf chars => (Parser.noneOf chars).map .text
  | takeWhile set => (Parser.takeWhile set.has).map .text
  | takeWhile1 set => (Parser.takeWhile1 set.has).map .text
  | firstOf parts => .firstOf (parsers styles parts)
  | all parts => (Parser.all (parsers styles parts)).map .items
  | many part => (Parser.many (parser styles part)).map .items
  | many1 part => (Parser.many1 (parser styles part)).map .items
  | optional part => (Parser.optional (parser styles part)).map (·.getD .absent)
  | preceded first second => .preceded (parser styles first) (parser styles second)
  | terminated first second => .terminated (parser styles first) (parser styles second)
  | convert part conversion => (parser styles part).filterMap conversion.apply?
  | verify part requirement => (parser styles part).verify requirement.test
  | rule name => name.parser styles
termination_by structural recipe => recipe

/-- The parsers that recipes describe. -/
def parsers (styles : StyleTable) : List Recipe → List (Parser Outcome)
  | [] => []
  | part :: parts => parser styles part :: parsers styles parts
termination_by structural recipes => recipes

end

end Recipe

end ShellPrompt.Template
