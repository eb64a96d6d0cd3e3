import ShellPrompt.Fragment.Basic
import ShellPrompt.Git.Repository
import ShellPrompt.Shell.Escape
import ShellPrompt.Style.Table
import ShellPrompt.Template.Token

/-!
What a prompt may look at while it is drawn. The context holds what is known beforehand; the
repository is looked for when it is first needed, and what has been found out about it is kept.

Access to the repository is shared or exclusive. While an exclusive borrow lasts, nobody else may
reach the repository.
-/

namespace ShellPrompt

/-- What is known before a prompt is drawn. -/
structure Context where
  currentDir : Path
  homeDir : Option Path := none
  jobs : Option String := none
  lastStatus : Int := 0
  environ : Dictionary String String := .empty
  shell : Shell := .bash
  styles : StyleTable := .builtin
  color : Bool := true
  gitTimeout : Binary64
  git : Git.Behaviour
  hostName : String
  login : Option String

/-- What is known about the repository of the current directory. -/
inductive Discovery where
  | pending
  | done (repository : Option Git.Repository)
deriving DecidableEq, Repr

/-- What changes while prompts are drawn: the runs of git so far, what is known about the
repository, and whether it is borrowed. -/
structure Access where
  calls : List Git.Call := []
  discovery : Discovery := .pending
  borrowed : Bool := false
deriving DecidableEq, Repr

/-- Why a prompt is not drawn. -/
inductive RenderError where
  | style (error : StyleError)
  | invalidOptions (component : ComponentName) (options : Options)
  /-- git failed, or a run of it broke off -/
  | git (error : Git.Error)
  | borrowed
  | borrowedTwice
  | interrupted

namespace RenderError

/-- Options as they are shown in a message. -/
def optionText (options : Options) : String :=
  Text.join ", " (options.entries.map fun (key, value) => key ++ "=" ++ value)

/-- What went wrong. -/
def message : RenderError → String
  | style error => error.message
  | invalidOptions component options =>
    "invalid options for " ++ component.identifier ++ ": " ++ optionText options
  | git error => error.message
  | borrowed => "repository is exclusively borrowed"
  | borrowedTwice => "repository is already exclusively borrowed"
  | interrupted => ""

/-- A trouble with git is a reason not to draw the prompt. -/
def ofTrouble : Git.Trouble → RenderError
  | .error error => git error
  | .interrupted => interrupted

end RenderError

/-- A step in drawing a prompt. -/
abbrev Draw (α : Type) := Action Access RenderError α

namespace Draw

/-- Runs git as a step in drawing a prompt. -/
def ofRun {α : Type} (run : Git.Run α) : Draw α :=
  run.onPart Access.calls (fun access calls => { access with calls }) RenderError.ofTrouble

end Draw

namespace Context

/-- What is known about the repository, after looking for it if need be. -/
def discover (context : Context) : Draw (Option Git.Repository) := do
  match (← Action.get).discovery with
  | .done repository => return repository
  | .pending =>
    let repository ←
      .ofRun (Git.Repository.discover context.git context.currentDir context.gitTimeout)
    Action.modify fun access => { access with discovery := .done repository }
    return repository

/-- Shared access to the repository. -/
def repository (context : Context) : Draw (Option Git.Repository) := do
  if (← Action.get).borrowed then .fail .borrowed else context.discover

/-- Begins an exclusive borrow. -/
def borrow (context : Context) : Draw (Option Git.Repository) := do
  if (← Action.get).borrowed then .fail .borrowedTwice
  else
    let repository ← context.discover
    Action.modify fun access => { access with borrowed := true }
    return repository

/-- Ends an exclusive borrow. -/
def release (access : Access) : Access := { access with borrowed := false }

/-- Does something with exclusive access to the repository. -/
def exclusively {α : Type} (context : Context) (use : Option Git.Repository → Draw α) : Draw α := do
  let repository ← context.borrow
  (use repository).andFinally release

/-- Whether a condition holds. -/
def holds (context : Context) : Condition → Bool
  | .lastCommandSucceeded => context.lastStatus == 0
  | .environmentHas name => context.environ.contains name

/-- The escape sequence of a keyword, marked for the shell; empty if there are to be no colors. -/
def styleSequence (context : Context) (name : String) : Except RenderError String :=
  if context.color then
    ((context.styles.sequence name).map context.shell.wrap).mapError .style
  else .ok ""

end Context

end ShellPrompt
