import ShellPrompt.Number.Shortest
import ShellPrompt.Path
import ShellPrompt.Text.Literal

/-!
Git as seen from outside: the commands that are given to it, how a run of it may end, and why a
run is of no use. How git behaves is a function of the runs that came before.
-/

namespace ShellPrompt.Git

/-- The questions that are put to git. -/
inductive Command where
  | locate | topLevel | branchName | shortCommit | status | stashList
deriving DecidableEq, Repr

/-- The arguments of a command. -/
def Command.arguments : Command → List String
  | locate => ["rev-parse", "--absolute-git-dir", "--is-bare-repository"]
  | topLevel => ["rev-parse", "--show-toplevel"]
  | branchName => ["symbolic-ref", "--quiet", "--short", "HEAD"]
  | shortCommit => ["rev-parse", "--short", "HEAD"]
  | status => ["status", "--porcelain=v1"]
  | stashList => ["stash", "list", "--format=%gd"]

/-- A command line of git in one text. -/
def Command.line (command : Command) : String := Text.join " " command.arguments

/-- A run of git: the command, where it is run, and how many seconds it may take. -/
structure Call where
  command : Command
  directory : Path
  timeout : Binary64
deriving DecidableEq, Repr

/-- Why a run of git breaks off: what git wrote cannot be read, or git cannot be run in the way that
is asked for. -/
inductive Breakage where
  /-- git wrote what is no text -/
  | undecodable (reason : String)
  /-- so much time cannot be waited for -/
  | timeout (reason : String)
  /-- the system cannot be told of the directory -/
  | directory (reason : String)
deriving DecidableEq, Repr

/-- What went wrong. -/
def Breakage.message : Breakage → String
  | undecodable reason | timeout reason | directory reason => reason

/-- How a run of git ends. -/
inductive Reply where
  /-- git ended, with an exit status and what it wrote -/
  | finished (status : Int) (output errors : String)
  /-- git could not be started -/
  | notStarted (reason : String)
  /-- git took too long -/
  | timedOut
  /-- the run broke off -/
  | broken (breakage : Breakage)
  /-- the user stopped waiting -/
  | interrupted
deriving DecidableEq, Repr

/-- How git answers a call after the given ones, oldest first. -/
abbrev Behaviour := List Call → Call → Reply

/-- A run of git that is of no use. -/
inductive Failure where
  | notStarted (command : Command) (reason : String)
  | timedOut (command : Command) (timeout : Binary64)
  | refused (command : Command) (status : Int) (errors : String)
deriving DecidableEq, Repr

/-- Words in quotation marks as a list in brackets. -/
def quotedList (words : List String) : String :=
  "[" ++ Text.join ", " (words.map Text.quoted) ++ "]"

/-- What went wrong, after the command line. -/
def Failure.message : Failure → String
  | notStarted command reason => "git " ++ command.line ++ ": " ++ reason
  | timedOut command timeout =>
    "git " ++ command.line ++ ": Command '" ++ quotedList ("git" :: command.arguments) ++
      "' timed out after " ++ timeout.text ++ " seconds"
  | refused command status errors =>
    let reason := Text.trim errors
    "git " ++ command.line ++ ": " ++
      if reason = "" then "exit status " ++ toString status else reason

/-- An error in running git. Where git need not answer, only failures are looked for. -/
inductive Error where
  | failure (failure : Failure)
  | broken (breakage : Breakage)
deriving DecidableEq, Repr

/-- What went wrong. -/
def Error.message : Error → String
  | failure cause => cause.message
  | broken cause => cause.message

end ShellPrompt.Git
