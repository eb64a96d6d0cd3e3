import ShellPrompt.CommandLine.Invocation
import ShellPrompt.Config.Files
import ShellPrompt.Prompt.Evaluate
import ShellPrompt.Shell.InitScript
import ShellPrompt.Template.Grammar

/-!
The program: it reads its command line and the configuration, and writes a prompt or a snippet. What
it finds around it, such as files, git and the environment, is given to it.
-/

namespace ShellPrompt.CommandLine

/-- What the program finds around it. -/
structure Surroundings where
  files : FileTree
  /-- the directory that the configuration is below unless it is named -/
  configHome : Path
  currentDir : Path
  homeDir : Path
  environ : Dictionary String String
  git : Git.Behaviour
  hostName : String
  login : Option String
  /-- the words that start the program -/
  executable : List String

/-- Why the program writes nothing. -/
inductive Failure where
  | load (error : LoadError)
  | styles (error : SpecError)
  | template (error : Template.ParseError)
  | render (error : RenderError)

/-- How the program ends. -/
inductive Outcome where
  | written (output : String)
  | refused (refusal : Refusal)
  | failed (failure : Failure)

/-- The name and version of the program. -/
def versionLine : String := "promptline 0.1.0\n"

/-- A text that is not empty, or another. -/
def orElseText (text : Option String) (other : String) : String :=
  match text with
  | some text => if text = "" then other else text
  | none => other

/-- What is known before a prompt is drawn. -/
def contextOf (around : Surroundings) (options : RunOptions) (config : Config)
    (styles : StyleTable) : Context where
  currentDir := around.currentDir
  homeDir := some around.homeDir
  jobs := if options.jobs = "" then none else some options.jobs
  lastStatus := options.status
  environ := around.environ
  shell := options.shell
  styles := styles
  color := config.color && !options.noColor
  gitTimeout := config.gitTimeout
  git := around.git
  hostName := around.hostName
  login := around.login

/-- The tokens of a template, and the style keywords they were read with. -/
def readTemplate (config : Config) (template : Option String) :
    Except Failure (StyleTable × List Token) := do
  let styles ← config.styleTable.mapError .styles
  let tokens ← (Template.parse styles (orElseText template config.template)).mapError .template
  return (styles, tokens)

/-- Draws the prompt; also the runs of git that it took. -/
def drawPrompt (around : Surroundings) (options : RunOptions) (config : Config) :
    Except Failure String × List Git.Call :=
  match readTemplate config options.template with
  | .error failure => (.error failure, [])
  | .ok (styles, tokens) =>
    let (result, access) := (contextOf around options config styles).render tokens {}
    (result.mapError .render, access.calls)

/-- Writes the snippet for a shell. The template is read, so that a fault in it shows at once. -/
def writeSnippet (around : Surroundings) (shell : Shell) (template : Option String)
    (config : Config) : Except Failure String := do
  let _ ← readTemplate config template
  return shell.initScript around.executable (orElseText template config.template)

/-- Carries out a command; also the runs of git that it took. -/
def perform (around : Surroundings) (invocation : Invocation) :
    Except Failure String × List Git.Call :=
  match Config.load around.files around.configHome invocation.configFile
      invocation.configDirectory with
  | .error error => (.error (.load error), [])
  | .ok config =>
    match invocation.command with
    | .run options => drawPrompt around options config
    | .init shell template => (writeSnippet around shell template config, [])

/-- Runs the program on its arguments. -/
def program (around : Surroundings) (arguments : List String) : Outcome × List Git.Call :=
  match Invocation.ofArguments arguments with
  | .error refusal => (.refused refusal, [])
  | .ok invocation =>
    match perform around invocation with
    | (.ok output, calls) => (.written output, calls)
    | (.error failure, calls) => (.failed failure, calls)

/-- What is said about a failure that is the user's to mend, none if the program breaks off. -/
def Failure.message? : Failure → Option String
  | load (.faulty source .malformed) => some (source ++ ": malformed YAML")
  | load (.faulty _ _) => none
  | load (.notMapping source) => some (Config.notMappingMessage source)
  | load .isDirectory => none
  | load (.config (.invalid problems)) => some (ConfigError.invalid problems).message
  | load (.config _) => none
  | styles _ => none
  | template error => some error.message
  | render .borrowed | render .borrowedTwice | render .interrupted => none
  | render (.git (.broken _)) => none
  | render (.style (.numeral _)) => none
  | render error => some error.message

/-- The exit status of a failure that the program survives. -/
def Failure.exitStatus : Failure → Nat
  | render .interrupted => 130
  | _ => 1

end ShellPrompt.CommandLine
