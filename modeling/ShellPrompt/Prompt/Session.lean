import ShellPrompt.Prompt.Evaluate
import ShellPrompt.Template.Grammar

/-!
Sessions: a context that is used step by step. Between the steps the repository may be borrowed,
and what is known before a prompt is drawn may be changed.
-/

namespace ShellPrompt

/-- A change of what is known before a prompt is drawn. -/
inductive Assignment where
  | currentDir (path : Path)
  | homeDir (path : Option Path)
  | jobs (count : Option String)
  | lastStatus (status : Int)
  | environ (environ : Dictionary String String)
  | shell (shell : Shell)
  | styles (styles : StyleTable)
  | color (color : Bool)
  | gitTimeout (timeout : Binary64)

/-- Makes a change. -/
def Context.assign (context : Context) : Assignment → Context
  | .currentDir path => { context with currentDir := path }
  | .homeDir path => { context with homeDir := path }
  | .jobs count => { context with jobs := count }
  | .lastStatus status => { context with lastStatus := status }
  | .environ environ => { context with environ }
  | .shell shell => { context with shell := shell }
  | .styles styles => { context with styles }
  | .color color => { context with color := color }
  | .gitTimeout timeout => { context with gitTimeout := timeout }

/-- A step of a session. -/
inductive Operation where
  | repository
  | borrow
  | release
  | releaseByError
  | render (template : String)
  | component (identifier : String) (options : Options)
  | handle (identifier : String) (options : Options)
  | condition (identifier : String)
  | style (name : String)
  | assign (change : Assignment)

/-- What a step yields. -/
inductive StepResult where
  | repository (repository : Option Git.Repository)
  | released
  | releasedByError
  | prompt (text : String)
  | slot (slot : Slot)
  | handled (shown : Option String) (left : Options)
  | truth (holds : Bool)
  | sequence (code : String)
  | assigned

/-- Why a step fails. -/
inductive StepError where
  | render (error : RenderError)
  | template (error : Template.ParseError)
  | unknownComponent (identifier : String)
  | unknownCondition (identifier : String)
  | notBorrowed

/-- A context in use. -/
structure Session where
  context : Context
  access : Access := {}

namespace Session

/-- Takes a step in drawing a prompt. -/
def draw {α : Type} (session : Session) (action : Draw α) (result : α → StepResult) :
    Except StepError StepResult × Session :=
  let (outcome, access) := action session.access
  ((outcome.map result).mapError .render, { session with access := access })

/-- The component of an identifier. -/
def withComponent (session : Session) (identifier : String)
    (use : ComponentName → Except StepError StepResult × Session) :
    Except StepError StepResult × Session :=
  match ComponentName.ofIdentifier? identifier with
  | some name => use name
  | none => (.error (.unknownComponent identifier), session)

/-- Ends the exclusive borrow that lasts. -/
def endBorrow (session : Session) (result : StepResult) : Except StepError StepResult × Session :=
  if session.access.borrowed then
    (.ok result, { session with access := Context.release session.access })
  else (.error .notBorrowed, session)

/-- Takes a step. -/
def step (session : Session) : Operation → Except StepError StepResult × Session
  | .repository => session.draw session.context.repository .repository
  | .borrow => session.draw session.context.borrow .repository
  | .release => session.endBorrow .released
  | .releaseByError => session.endBorrow .releasedByError
  | .render template =>
    match Template.parse session.context.styles template with
    | .ok tokens => session.draw (session.context.render tokens) .prompt
    | .error error => (.error (.template error), session)
  | .component identifier options =>
    session.withComponent identifier fun name =>
      session.draw (Component.run session.context name options) .slot
  | .handle identifier options =>
    session.withComponent identifier fun name =>
      session.draw (Component.handle session.context name options) fun (shown, left) =>
        .handled shown left
  | .condition identifier =>
    match Condition.ofIdentifier? identifier with
    | some condition => (.ok (.truth (session.context.holds condition)), session)
    | none => (.error (.unknownCondition identifier), session)
  | .style name => session.draw (.ofExcept (session.context.styleSequence name)) .sequence
  | .assign change => (.ok .assigned, { session with context := session.context.assign change })

/-- Takes steps in order: after each, its result and the session. -/
def run (session : Session) : List Operation → List (Except StepError StepResult × Session)
  | [] => []
  | operation :: rest =>
    let (result, next) := session.step operation
    (result, next) :: run next rest

end Session

end ShellPrompt
