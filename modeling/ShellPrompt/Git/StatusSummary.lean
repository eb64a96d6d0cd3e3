import ShellPrompt.Text.Split

/-!
A summary of the state of a working tree. Git lists changed files one a line, with a code of two
letters in front: the first tells what is staged, the second what is not. Some pairs stand for
conflicts, and two question marks for a file that git does not know.
-/

namespace ShellPrompt.Git

/-- How many files are changed in which way. -/
structure StatusSummary where
  staged : Nat := 0
  unstaged : Nat := 0
  untracked : Nat := 0
  conflicted : Nat := 0
deriving DecidableEq, Repr

namespace StatusSummary

/-- The letters of staged changes. -/
def stagedLetters : List Char := ['M', 'A', 'D', 'R', 'C', 'T']

/-- The letters of changes that are not staged. -/
def unstagedLetters : List Char := ['M', 'D', 'T']

/-- Adds one file by its code. -/
def addCode (summary : StatusSummary) (index worktree : Char) : StatusSummary :=
  if index = '?' ∧ worktree = '?' then { summary with untracked := summary.untracked + 1 }
  else if index = 'U' ∨ worktree = 'U' ∨ (index = 'A' ∧ worktree = 'A') ∨
      (index = 'D' ∧ worktree = 'D') then
    { summary with conflicted := summary.conflicted + 1 }
  else
    { summary with
      staged := summary.staged + if stagedLetters.contains index then 1 else 0
      unstaged := summary.unstaged + if unstagedLetters.contains worktree then 1 else 0 }

/-- Adds one line; a line of fewer than two characters has no code. -/
def addLine (summary : StatusSummary) : List Char → StatusSummary
  | index :: worktree :: _ => summary.addCode index worktree
  | _ => summary

/-- Summarizes what git lists. -/
def ofPorcelain (output : String) : StatusSummary :=
  (Text.lineRuns output.toList).foldl addLine {}

/-- Whether no file is changed in any way. -/
def isClean (summary : StatusSummary) : Bool :=
  summary.staged == 0 && summary.unstaged == 0 && summary.untracked == 0 && summary.conflicted == 0

/-- The counts that are not zero, each behind its sign. -/
def text (summary : StatusSummary) : String :=
  let parts := [('+', summary.staged), ('*', summary.unstaged), ('?', summary.untracked),
    ('!', summary.conflicted)]
  String.ofList ((parts.filter (·.2 ≠ 0)).flatMap fun (sign, count) =>
    sign :: (toString count).toList)

end StatusSummary

end ShellPrompt.Git
