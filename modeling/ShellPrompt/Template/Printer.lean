import ShellPrompt.Template.Token

/-!
The written form of a token tree.
-/

namespace ShellPrompt.Token

/-- Options in the written form of a component. -/
def optionChars (options : Options) : List Char :=
  options.entries.flatMap fun (key, value) => ' ' :: key.toList ++ '=' :: value.toList

mutual

/-- The written form of a token. -/
def chars : Token → List Char
  | static text => text.toList
  | style name => '{' :: name.toList ++ ['}']
  | component name options =>
    '{' :: name.identifier.toList ++ optionChars options ++ ['}']
  | conditional condition left right =>
    "\x7bif ".toList ++ condition.identifier.toList ++ ['}'] ++ charsAll left ++
      charsElse right ++ "\x7bend\x7d".toList
termination_by structural token => token

/-- The written forms of tokens in order. -/
def charsAll : List Token → List Char
  | [] => []
  | token :: rest => chars token ++ charsAll rest
termination_by structural tokens => tokens

/-- The written form of a second branch, if there is one. -/
def charsElse : Option (List Token) → List Char
  | none => []
  | some tokens => "\x7belse\x7d".toList ++ charsAll tokens
termination_by structural tokens => tokens

end

theorem chars_style (name : String) : (style name).chars = '{' :: name.toList ++ ['}'] := rfl

theorem chars_component (name : ComponentName) (options : Options) :
    (component name options).chars =
      '{' :: name.identifier.toList ++ optionChars options ++ ['}'] := rfl

theorem chars_conditional (condition : Condition) (left : List Token)
    (right : Option (List Token)) : (conditional condition left right).chars =
      "\x7bif ".toList ++ condition.identifier.toList ++ ['}'] ++ charsAll left ++
        charsElse right ++ "\x7bend\x7d".toList := rfl

theorem charsAll_cons (token : Token) (rest : List Token) :
    charsAll (token :: rest) = token.chars ++ charsAll rest := rfl

theorem charsElse_some (tokens : List Token) :
    charsElse (some tokens) = "\x7belse\x7d".toList ++ charsAll tokens := rfl

/-- The template that a token tree is written as. -/
def serialize (tokens : List Token) : String := String.ofList (charsAll tokens)

end ShellPrompt.Token
