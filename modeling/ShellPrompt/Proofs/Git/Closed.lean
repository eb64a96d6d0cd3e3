import ShellPrompt.Proofs.Action
import ShellPrompt.Proofs.Git.Discovery

/-! # What holds of all runs of git

Whatever git is asked is put together of single runs of it. So a property that these have is one of
discoveries, too, and of all questions, if it is kept from one action to the next. -/

namespace ShellPrompt.Git

/-- Whether a command is run to find a repository, and not to ask it something. -/
def Command.discovers : Command → Bool
  | .locate | .topLevel => true
  | .branchName | .shortCommit | .status | .stashList => false

/-- A property that single runs of git have, if the command is one that is `allowed`, and that is
kept when actions are put together. -/
structure Run.Closed (git : Behaviour) (allowed : Command → Prop)
    (property : ∀ {α : Type}, Run α → Prop) : Prop extends Action.Closed property where
  fail : ∀ {α : Type} (failure : Failure), property (Action.fail (.error (.failure failure)) : Run α)
  run : ∀ call : Call, allowed call.command → property (Git.run git call)
  attempt : ∀ {α : Type} (call : Call) (read : Finished → Option α), allowed call.command →
    property (Git.attempt git call read)

namespace Run.Closed

variable {git : Behaviour} {allowed : Command → Prop} {property : ∀ {α : Type}, Run α → Prop}

theorem discover (h : Closed git allowed property) (hlocate : allowed .locate)
    (htopLevel : allowed .topLevel) (directory : Path) (timeout : Binary64) :
    property (Repository.discover git directory timeout) := by
  rw [Repository.discover, locate_eq]
  apply h.bind (h.attempt _ _ hlocate)
  intro location
  split
  · exact h.pure _
  · exact h.pure _
  · exact h.bind (h.run _ htopLevel) fun reply => h.pure _

theorem status (h : Closed git allowed property) (hstatus : allowed .status)
    (repository : Repository) : property (repository.status git) := by
  have houtput : property (repository.output git .status) := by
    apply h.bind (h.run _ hstatus)
    intro reply
    split
    · exact h.pure _
    · exact h.fail _
  exact h.bind houtput fun output => h.pure _

end Run.Closed

end ShellPrompt.Git
