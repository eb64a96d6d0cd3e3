import ShellPrompt.Prompt.Context
import ShellPrompt.Prompt.Directory

/-!
The components of a prompt. A component takes the options it understands, leaves the others, and
shows something or nothing.
-/

namespace ShellPrompt

/-- How much of the current directory is shown. -/
inductive DirectoryStyle where
  | default | short | long
deriving DecidableEq, Repr

namespace DirectoryStyle

/-- All styles. -/
def all : List DirectoryStyle := [default, short, long]

/-- The name of a style. -/
def name : DirectoryStyle → String
  | default => "default"
  | short => "short"
  | long => "long"

/-- The style of a name. -/
def ofName? (name : String) : Option DirectoryStyle := all.find? (·.name = name)

end DirectoryStyle

namespace Component

open Git

/-- The option that chooses how much of the current directory is shown. -/
def styleKey : String := "style"

/-- The style that the options ask for. -/
def directoryStyle (options : Options) : Except RenderError DirectoryStyle :=
  let name := (options.get? styleKey).getD DirectoryStyle.default.name
  match DirectoryStyle.ofName? name with
  | some style => .ok style
  | none => .error (.invalidOptions .cwd (.ofPairs [(styleKey, name)]))

/-- The current directory in its short form, if there is a repository to shorten it by. -/
def shortDirectory (context : Context) (repository : Option Repository) : String :=
  match repository.bind Repository.workdir, context.homeDir with
  | some workdir, some home => context.currentDir.shortened home workdir
  | _, home => context.currentDir.displayed home

/-- The current directory. -/
def directory (context : Context) (style : DirectoryStyle) : Draw String :=
  match style with
  | .long => return context.currentDir.text
  | .short => return shortDirectory context (← context.repository)
  | .default => return context.currentDir.displayed context.homeDir

/-- What a repository shows, nothing when git fails to tell. -/
def fromRepository (context : Context) (question : Repository → Run (Option String)) :
    Draw (Option String) := do
  match ← context.repository with
  | none => return none
  | some repository => .ofRun (Repository.orNone (question repository))

/-- The number of stashed changes, if the repository has a working tree and git can tell. -/
def stashCount (context : Context) (repository : Option Repository) : Draw (Option Nat) :=
  match repository with
  | none => return none
  | some repository =>
    if repository.isBare then return none
    else .ofRun (Repository.orNone do return some (← repository.stashes context.git).length)

/-- How many changes are stashed, followed by a plus sign. -/
def stash (context : Context) : Draw (Option String) := do
  let count ← context.exclusively (stashCount context)
  return (count.filter (· ≠ 0)).map fun n => toString n ++ "+"

/-- The state of the working tree, nothing when it is clean. -/
def status (context : Context) : Draw (Option String) := do
  match ← context.repository with
  | none => return none
  | some repository =>
    if repository.isBare then return none
    else
      let summary ← .ofRun (repository.status context.git)
      return if summary.isClean then none else some summary.text

/-- A text, if it is not empty. -/
def ofText (text : String) : Option String := if text = "" then none else some text

/-- The name of the computer up to the first dot. -/
def hostName (context : Context) : Option String :=
  ofText (String.ofList (context.hostName.toList.takeWhile (· ≠ '.')))

/-- The user's name: what the environment says, else the login name. -/
def userName (context : Context) : Option String :=
  let named := ["USER", "LOGNAME"].filterMap fun key =>
    (context.environ.get? key).bind ofText
  named.head?.or (context.login.bind ofText)

/-- What the number of jobs is when there are none. -/
def noJobs : String := "__empty__"

/-- The number of jobs. -/
def jobCount (context : Context) : Option String :=
  (context.jobs.bind ofText).filter (· ≠ noJobs)

/-- What a component shows, and the options it leaves. -/
def handle (context : Context) (name : ComponentName) (options : Options) :
    Draw (Option String × Options) :=
  match name with
  | .cwd => do
    let style ← .ofExcept (directoryStyle options)
    let shown ← directory context style
    return (some shown, options.erase styleKey)
  | .gitBranch => return (← fromRepository context (·.branch context.git), options)
  | .gitCommit => return (← fromRepository context (·.commit context.git), options)
  | .gitStash => return (← stash context, options)
  | .gitStatus => return (← status context, options)
  | .hostname => return (hostName context, options)
  | .jobs => return (jobCount context, options)
  | .user => return (userName context, options)

/-- The slot of a component: what it shows, escaped for the shell. All options have to be
understood. -/
def run (context : Context) (name : ComponentName) (options : Options) : Draw Slot := do
  let (shown, left) ← handle context name options
  if left.isEmpty then return shown.map fun text => .value (context.shell.escape text)
  else .fail (.invalidOptions name left)

end Component

end ShellPrompt
