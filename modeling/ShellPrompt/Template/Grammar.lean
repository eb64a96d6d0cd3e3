import ShellPrompt.Parser.Basic
import ShellPrompt.Style.Table
import ShellPrompt.Template.Token
import ShellPrompt.Text.Blank

/-!
The grammar of templates. At each place the alternatives are tried in this order: a text without
braces, a doubled brace, a style keyword, a conditional, a component.

A conditional holds templates of its own. It reads them beyond its header, so each of them is
shorter than what the conditional was read from, and reading ends.
-/

namespace ShellPrompt.Template

open Text

/-- White space, if any. -/
def blanks : Parser String := .takeWhile isBlank

/-- At least one white space character. -/
def blanks1 : Parser String := .takeWhile1 isBlank

/-- An identifier that is no reserved word. -/
def identifier : Parser String :=
  (Parser.takeWhile1 isIdentifierChar).verify fun name => !reservedWords.contains name

/-- Text up to the next brace. -/
def static : Parser Token := (Parser.noneOf ['{']).map .static

/-- Two braces, which stay as they are written. -/
def doubledBrace : Parser Token := (Parser.tag "\x7b\x7b").map .static

/-- The key of an option. -/
def optionKey : Parser String := .takeWhile1 fun c => !(c == '=' || c == '}') && !isBlank c

/-- The value of an option. -/
def optionValue : Parser String := .noneOf ['}', ' ']

/-- An option with the white space in front of it. -/
def option : Parser (String × String) :=
  .preceded blanks1 (.both (.terminated optionKey (.tag "=")) optionValue)

/-- The start of a conditional's header. -/
def ifStart : Parser (String × String × String) :=
  .both (.tag "\x7b") (.both blanks (.tag "if"))

/-- The rest of a conditional's header. -/
def ifCondition : Parser Condition :=
  .terminated (.preceded blanks (identifier.filterMap Condition.ofIdentifier?)) (.tag "\x7d")

/-- What stands between the branches of a conditional. -/
def elseTag : Parser String := .tag "\x7belse\x7d"

/-- What stands at the end of a conditional. -/
def endTag : Parser String := .tag "\x7bend\x7d"

/-- The start of a component. -/
def componentName : Parser ComponentName :=
  .preceded (.both (.tag "\x7b") blanks) (identifier.filterMap ComponentName.ofIdentifier?)

/-- The options of a component and its closing brace. -/
def componentOptions : Parser (List (String × String)) :=
  .terminated (.many option) (.both blanks (.tag "\x7d"))

/-- A component. -/
def component : Parser Token :=
  (Parser.both componentName componentOptions).map fun (name, pairs) =>
    .component name (.ofPairs pairs)

/-- A keyword of a style table. -/
def style (styles : StyleTable) : Parser Token :=
  (Parser.terminated
    (.preceded (.both (.tag "\x7b") blanks) (identifier.verify styles.contains))
    (.both blanks (.tag "\x7d"))).map .style

/-- A second branch, where `branch` reads branches. -/
def elseBranchOf (branch : Parser (List Token)) : Parser (List Token) := .preceded elseTag branch

/-- A conditional, where `branch` reads branches. -/
def conditionalOf (branch : Parser (List Token)) : Parser Token :=
  (Parser.both (.preceded ifStart ifCondition)
    (.both branch (.terminated (.optional (elseBranchOf branch)) endTag))).map
      fun (condition, left, right) => .conditional condition left right

/-- A token, where `inner` reads the tokens inside a conditional. -/
def tokenOf (styles : StyleTable) (inner : Parser Token) : Parser Token :=
  .firstOf [static, doubledBrace, style styles, conditionalOf (.many1 inner), component]

/-- A token. -/
def token (styles : StyleTable) (cursor : Cursor) : Option (Token × Cursor) :=
  tokenOf styles
    (fun inner => if inner.rest.length < cursor.rest.length then token styles inner else none)
    cursor
termination_by cursor.rest.length

/-- One or more tokens. -/
def tokens (styles : StyleTable) : Parser (List Token) := .many1 (token styles)

/-- A conditional. -/
def conditional (styles : StyleTable) : Parser Token := conditionalOf (tokens styles)

/-- A second branch. -/
def elseBranch (styles : StyleTable) : Parser (List Token) := elseBranchOf (tokens styles)

/-- A template that is not read to its end: the place where reading stopped and what follows. -/
structure ParseError where
  position : Nat
  remainder : String
deriving DecidableEq, Repr

/-- What is left of the template. -/
def ParseError.message (error : ParseError) : String := "parse error: " ++ error.remainder

/-- Reads a whole template. -/
def parse (styles : StyleTable) (template : String) : Except ParseError (List Token) :=
  let start : Cursor := ⟨0, template.toList⟩
  match tokens styles start with
  | some (tree, stop) =>
    if stop.atEnd then .ok tree else .error ⟨stop.position, String.ofList stop.rest⟩
  | none => .error ⟨start.position, template⟩

end ShellPrompt.Template
