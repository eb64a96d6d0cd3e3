import ShellPrompt.Action
import ShellPrompt.Git.Command
import ShellPrompt.Git.StatusSummary

/-!
A git repository and the questions it answers. All of them run git and keep a log of its runs.
-/

namespace ShellPrompt.Git

/-- Why a question to git has no answer. -/
inductive Trouble where
  | error (error : Error)
  | interrupted
deriving DecidableEq, Repr

/-- Runs of git, which are logged oldest first. -/
abbrev Run (α : Type) := Action (List Call) Trouble α

/-- What a finished run leaves. -/
structure Finished where
  status : Int
  output : String
  errors : String
deriving DecidableEq, Repr

/-- Runs git once. -/
def run (git : Behaviour) (call : Call) : Run Finished := fun calls =>
  let log := calls ++ [call]
  match git calls call with
  | .finished status output errors => (.ok ⟨status, output, errors⟩, log)
  | .notStarted reason => (.error (.error (.failure (.notStarted call.command reason))), log)
  | .timedOut => (.error (.error (.failure (.timedOut call.command call.timeout))), log)
  | .broken breakage => (.error (.error (.broken breakage)), log)
  | .interrupted => (.error .interrupted, log)

/-- A repository: where its data is, where its working tree is if it has one, and how many seconds
a run of git may take. -/
structure Repository where
  gitDir : Path
  workdir : Option Path
  timeout : Binary64
deriving DecidableEq, Repr

namespace Repository

/-- Whether there is no working tree. -/
def isBare (repository : Repository) : Bool := repository.workdir.isNone

/-- Where git is run for a repository. -/
def path (repository : Repository) : Path := repository.workdir.getD repository.gitDir

/-- The root of the working tree, if git tells one. -/
def workdirOf (reply : Finished) : Option Path :=
  let root := Text.trim reply.output
  if reply.status = 0 ∧ root ≠ "" then some (.ofString root) else none

/-- Goes on without an answer where git fails. Other trouble is left as it is. -/
def orNone {α : Type} (action : Run (Option α)) : Run (Option α) :=
  action.orElse fun
    | .error (.failure _) => pure none
    | trouble => .fail trouble

/-- The two lines that say where a repository is: its data, and whether it is bare. -/
def location? (reply : Finished) : Option (Path × Bool) :=
  match Text.lines reply.output with
  | gitDir :: bare :: _ =>
    if reply.status = 0 then some (.ofString gitDir, Text.trim bare = "true") else none
  | _ => none

/-- Asks where the repository of a directory is. -/
def locate (git : Behaviour) (directory : Path) (timeout : Binary64) :
    Run (Option (Path × Bool)) :=
  orNone do return location? (← run git ⟨.locate, directory, timeout⟩)

/-- Finds the repository that holds a directory. If git fails to answer the first question there is
none; a repository that is not bare has to answer the second. -/
def discover (git : Behaviour) (directory : Path) (timeout : Binary64) :
    Run (Option Repository) := do
  match ← locate git directory timeout with
  | none => return none
  | some (gitDir, true) => return some ⟨gitDir, none, timeout⟩
  | some (gitDir, false) =>
    let reply ← run git ⟨.topLevel, directory, timeout⟩
    return some ⟨gitDir, workdirOf reply, timeout⟩

/-- Puts a question to git. -/
def ask (repository : Repository) (git : Behaviour) (command : Command) : Run Finished :=
  run git ⟨command, repository.path, repository.timeout⟩

/-- The first thing that git writes, if it ends well and writes something. -/
def answer? (reply : Finished) : Option String :=
  let text := Text.trim reply.output
  if reply.status = 0 ∧ text ≠ "" then some text else none

/-- The name of the branch, none when no branch is checked out. -/
def branch (repository : Repository) (git : Behaviour) : Run (Option String) :=
  return answer? (← repository.ask git .branchName)

/-- The short name of the last commit, none before the first. -/
def commit (repository : Repository) (git : Behaviour) : Run (Option String) :=
  return answer? (← repository.ask git .shortCommit)

/-- What git writes when it has to end well. -/
def output (repository : Repository) (git : Behaviour) (command : Command) : Run String := do
  let reply ← repository.ask git command
  if reply.status = 0 then return reply.output
  else .fail (.error (.failure (.refused command reply.status reply.errors)))

/-- The state of the working tree. -/
def status (repository : Repository) (git : Behaviour) : Run StatusSummary :=
  return .ofPorcelain (← repository.output git .status)

/-- The stashed changes, newest first. -/
def stashes (repository : Repository) (git : Behaviour) : Run (List String) :=
  return (Text.lines (← repository.output git .stashList)).filter (· ≠ "")

end Repository

end ShellPrompt.Git
