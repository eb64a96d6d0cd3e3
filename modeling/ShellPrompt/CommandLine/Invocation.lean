import ShellPrompt.CommandLine.Arguments
import ShellPrompt.Path
import ShellPrompt.Shell.Escape

/-!
What the program is asked to do. In front stand options for every command, then the command: `run`
draws a prompt, `init` writes the snippet for a shell's startup file.
-/

namespace ShellPrompt.CommandLine

/-- The options in front of the command. -/
inductive GlobalKey where
  | configFile | configDirectory | verbose | version | help
deriving DecidableEq

/-- The options of `run`. -/
inductive RunKey where
  | shell | jobs | status | template | noColor | help
deriving DecidableEq

/-- The arguments of `init`. -/
inductive InitKey where
  | shell | template
deriving DecidableEq

/-- How the options in front of the command are written. -/
def globalForms : List (OptionForm GlobalKey) :=
  [⟨.help, ["-h", "--help"], false⟩, ⟨.configFile, ["--config"], true⟩,
    ⟨.configDirectory, ["--config-dir"], true⟩, ⟨.verbose, ["--verbose", "-v"], false⟩,
    ⟨.version, ["--version", "-V"], false⟩]

/-- How the options of `run` are written. -/
def runForms : List (OptionForm RunKey) :=
  [⟨.help, ["-h", "--help"], false⟩, ⟨.shell, ["--shell", "-s"], true⟩,
    ⟨.jobs, ["--jobs", "-j"], true⟩, ⟨.status, ["--status"], true⟩,
    ⟨.template, ["--template", "-t"], true⟩, ⟨.noColor, ["--no-color"], false⟩]

/-- How the options of `init` are written. -/
def initForms : List (OptionForm Unit) := [⟨(), ["-h", "--help"], false⟩]

/-- What a prompt is to be drawn for. -/
structure RunOptions where
  shell : Shell
  jobs : String := ""
  status : Int := 0
  template : Option String := none
  noColor : Bool := false
deriving DecidableEq

/-- A command. -/
inductive Command where
  | run (options : RunOptions)
  | init (shell : Shell) (template : Option String)
deriving DecidableEq

/-- A command and where its configuration is. -/
structure Invocation where
  command : Command
  configFile : Option Path := none
  configDirectory : Option Path := none
deriving DecidableEq

/-- Why there is no command to carry out. -/
inductive Refusal where
  /-- the version is asked for -/
  | version
  /-- an explanation is asked for -/
  | help
  /-- the arguments cannot be understood -/
  | misuse
deriving DecidableEq, Repr

/-- The options of `run` so far; the shell has to be named. -/
structure RunDraft where
  shell : Option Shell := none
  jobs : String := ""
  status : Int := 0
  template : Option String := none
  noColor : Bool := false
  unknown : Bool := false

/-- A value that has to be there. -/
def required {α : Type} (value : Option α) : Except Refusal α :=
  match value with
  | some value => .ok value
  | none => .error .misuse

/-- Takes note of what the command line says about a prompt. -/
def RunDraft.add (draft : RunDraft) : Event RunKey Unit → Except Refusal RunDraft
  | .option .shell value => do
    return { draft with shell := some (← required (value.bind Shell.ofName?)) }
  | .option .jobs value => return { draft with jobs := value.getD "" }
  | .option .status value => do
    let status ← required (value.bind fun text => (Numeral.read 10 text).toOption)
    return { draft with status }
  | .option .template value => return { draft with template := value }
  | .option .noColor _ => return { draft with noColor := true }
  | .option .help _ => throw .help
  | .operand _ _ | .unknown _ => return { draft with unknown := true }
  | .misuse => throw .misuse

/-- The options of `run`, and whether some arguments are unknown. -/
def runOptions (arguments : List String) : Except Refusal (RunOptions × Bool) := do
  let noOperands : List (Unit × OperandForm) := []
  let draft ← (events runForms noOperands arguments).foldlM RunDraft.add {}
  let shell ← required draft.shell
  return (⟨shell, draft.jobs, draft.status, draft.template, draft.noColor⟩, draft.unknown)

/-- The arguments of `init` so far. -/
structure InitDraft where
  shell : Option Shell := none
  template : Option String := none
  unknown : Bool := false

/-- Takes note of what the command line says about a snippet. -/
def InitDraft.add (draft : InitDraft) : Event Unit InitKey → Except Refusal InitDraft
  | .operand .shell values => do
    return { draft with shell := some (← required (values.head?.bind Shell.ofName?)) }
  | .operand .template values => return { draft with template := values.head? }
  | .option _ _ => throw .help
  | .unknown _ => return { draft with unknown := true }
  | .misuse => throw .misuse

/-- The arguments of `init`, and whether some are unknown. -/
def initArguments (arguments : List String) :
    Except Refusal ((Shell × Option String) × Bool) := do
  let operands := [(InitKey.shell, OperandForm.single), (InitKey.template, OperandForm.optional)]
  let draft ← (events initForms operands arguments).foldlM InitDraft.add {}
  let shell ← required draft.shell
  return ((shell, draft.template), draft.unknown)

/-- A command by its name and arguments, and whether some arguments are unknown. -/
def commandOf : List String → Except Refusal (Command × Bool)
  | "run" :: arguments => do
    let (options, unknown) ← runOptions arguments
    return (.run options, unknown)
  | "init" :: arguments => do
    let ((shell, template), unknown) ← initArguments arguments
    return (.init shell template, unknown)
  | _ => .error .misuse

/-- What the command line says so far. -/
structure Draft where
  command : Option Command := none
  configFile : Option Path := none
  configDirectory : Option Path := none
  unknown : Bool := false

/-- Takes note of what the command line says. -/
def Draft.add (draft : Draft) : Event GlobalKey Unit → Except Refusal Draft
  | .option .configFile value => return { draft with configFile := value.map .ofString }
  | .option .configDirectory value => return { draft with configDirectory := value.map .ofString }
  | .option .verbose _ => return draft
  | .option .version _ => throw .version
  | .option .help _ => throw .help
  | .operand _ values => do
    let (command, unknown) ← commandOf values
    return { draft with command := some command, unknown := draft.unknown || unknown }
  | .unknown _ => return { draft with unknown := true }
  | .misuse => throw .misuse

/-- Reads a command line. No argument may be left over. -/
def Invocation.ofArguments (arguments : List String) : Except Refusal Invocation := do
  let operands := [((), OperandForm.remainder)]
  let draft ← (events globalForms operands arguments).foldlM Draft.add {}
  let command ← required draft.command
  if draft.unknown then throw .misuse
  return { command, configFile := draft.configFile, configDirectory := draft.configDirectory }

end ShellPrompt.CommandLine
