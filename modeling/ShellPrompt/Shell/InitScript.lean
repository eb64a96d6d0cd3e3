import ShellPrompt.Shell.Escape
import ShellPrompt.Shell.Words

/-!
The snippet that a shell's startup file runs. It has the prompt drawn before every command line, by
a command that is told the last exit status, the number of jobs and the template. The snippet is a
fixed text with a place for the command and a place for the template.
-/

namespace ShellPrompt.Shell

/-- The snippet of a shell, line by line, with both places marked. -/
def snippetLines : Shell → List String
  | zsh => [
    "_promptline_precmd() \x7b",
    "    local exit_code=$?",
    "    local job_count=$\x7b#jobstates\x7d",
    "    if [[ $job_count -eq 0 ]]; then",
    "        job_count=__empty__",
    "    fi",
    "    PROMPT=\"$(__CMD__ run --shell zsh --status \"$exit_code\" --jobs \"$job_count\" --template __TEMPLATE__)\"",
    "\x7d",
    "",
    "autoload -Uz add-zsh-hook",
    "add-zsh-hook precmd _promptline_precmd"]
  | bash => [
    "_promptline_prompt_command() \x7b",
    "    local exit_code=$?",
    "    local job_count",
    "    job_count=$(jobs -p | wc -l | tr -d ' ')",
    "    if [[ $job_count -eq 0 ]]; then",
    "        job_count=__empty__",
    "    fi",
    "    PS1=\"$(__CMD__ run --shell bash --status \"$exit_code\" --jobs \"$job_count\" --template __TEMPLATE__)\"",
    "\x7d",
    "",
    "if [[ \";$\x7bPROMPT_COMMAND[*]:-\x7d;\" != *\";_promptline_prompt_command;\"* ]]; then",
    "    PROMPT_COMMAND=\"_promptline_prompt_command$\x7bPROMPT_COMMAND:+;$PROMPT_COMMAND\x7d\"",
    "fi"]

/-- The snippet of a shell; every line is ended. -/
def snippet (shell : Shell) : List Char :=
  shell.snippetLines.flatMap fun line => line.toList ++ ['\n']

/-- The mark of the place for the command. -/
def commandMark : List Char := "__CMD__".toList

/-- The mark of the place for the template. -/
def templateMark : List Char := "__TEMPLATE__".toList

/-- Replaces every occurrence of a pattern, from left to right. -/
def replaceAll (pattern replacement : List Char) : List Char → List Char
  | [] => []
  | c :: rest =>
    if pattern.isPrefixOf (c :: rest) then
      replacement ++ replaceAll pattern replacement (rest.drop (pattern.length - 1))
    else c :: replaceAll pattern replacement rest
termination_by text => text.length
decreasing_by all_goals simp_wf; try omega

/-- The snippet that has prompts drawn by a command from a template. -/
def initScript (shell : Shell) (command : List String) (template : String) : String :=
  let withCommand := replaceAll commandMark (commandLine command).toList shell.snippet
  String.ofList (replaceAll templateMark (quote template).toList withCommand)

end ShellPrompt.Shell
