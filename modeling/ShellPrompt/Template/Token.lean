import ShellPrompt.Dictionary
import ShellPrompt.Text.Literal

/-!
Templates as trees. A template is a list of tokens: literal text, style keywords, components that
are filled in when the prompt is drawn, and conditionals with a branch for either outcome.
-/

namespace ShellPrompt

/-- The parts of a prompt that are filled in when it is drawn. -/
inductive ComponentName where
  | cwd | gitBranch | gitCommit | gitStash | gitStatus | hostname | jobs | user
deriving DecidableEq, Repr

namespace ComponentName

/-- All components. -/
def all : List ComponentName :=
  [cwd, gitBranch, gitCommit, gitStash, gitStatus, hostname, jobs, user]

/-- The identifier of a component. -/
def identifier : ComponentName → String
  | cwd => "cwd"
  | gitBranch => "git_branch"
  | gitCommit => "git_commit"
  | gitStash => "git_stash"
  | gitStatus => "git_status"
  | hostname => "hostname"
  | jobs => "jobs"
  | user => "user"

/-- The component of an identifier. -/
def ofIdentifier? (identifier : String) : Option ComponentName :=
  all.find? (·.identifier = identifier)

/-- What is said of an identifier that no component has. -/
def unknownMessage (identifier : String) : String :=
  Text.quoted identifier ++ " is not a valid ComponentName"

end ComponentName

/-- What a conditional asks. -/
inductive Condition where
  /-- whether the last command ended with status zero -/
  | lastCommandSucceeded
  /-- whether an environment variable is set -/
  | environmentHas (name : String)
deriving DecidableEq, Repr

namespace Condition

/-- What the identifier of an environment condition starts with. -/
def environmentMark : String := "env_"

/-- The identifier of the condition on the last command. -/
def lastCommandIdentifier : String := "last_command_status"

/-- The identifier of a condition. -/
def identifier : Condition → String
  | lastCommandSucceeded => lastCommandIdentifier
  | environmentHas name => environmentMark ++ name

/-- The condition of an identifier; an environment condition names a variable. -/
def ofIdentifier? (identifier : String) : Option Condition :=
  if identifier = lastCommandIdentifier then some lastCommandSucceeded
  else
    let mark := environmentMark.toList
    if mark.isPrefixOf identifier.toList ∧ mark.length < identifier.toList.length then
      some (environmentHas (String.ofList (identifier.toList.drop mark.length)))
    else none

/-- What is said of an identifier that no condition has. -/
def unknownMessage (identifier : String) : String := "unknown condition: " ++ identifier

end Condition

/-- Options of a component by key, in the order of the template. -/
abbrev Options := Dictionary String String

instance : BEq Options := instBEqOfDecidableEq

/-- One piece of a template. -/
inductive Token where
  | static (text : String)
  | style (name : String)
  | component (name : ComponentName) (options : Options)
  | conditional (condition : Condition) (left : List Token) (right : Option (List Token))
deriving BEq, Inhabited

/-- The words that are part of a conditional and no identifiers. -/
def reservedWords : List String := ["end", "else"]

/-- The characters of identifiers: ASCII letters and the underscore. -/
def isIdentifierChar (c : Char) : Bool := c.isAlpha || c == '_'

/-- Whether a whole text could be an identifier, reserved words included. -/
def isIdentifier (text : String) : Bool := text ≠ "" && text.toList.all isIdentifierChar

end ShellPrompt
