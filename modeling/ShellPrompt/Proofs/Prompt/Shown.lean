import ShellPrompt.Prompt.Evaluate
import ShellPrompt.Proofs.Fragment.Kind

/-! # What a prompt shows

The slots of a prompt with the texts that components produce, before these are escaped. Drawing a
prompt escapes the values that stay and nothing else. -/

namespace ShellPrompt

/-- A fragment as the shell is given it: values are escaped. -/
def Fragment.escaped (shell : Shell) : Fragment → Fragment
  | .value shown => .value (shell.escape shown)
  | other => other

/-- The same for the place of a fragment. -/
def Slot.escaped (shell : Shell) (slot : Slot) : Slot := slot.map (Fragment.escaped shell)

/-- The slot of a component with the text that the component produces. -/
def Component.plain (context : Context) (name : ComponentName) (options : Options) : Draw Slot := do
  let (shown, left) ← Component.handle context name options
  if left.isEmpty then return shown.map .value else .fail (.invalidOptions name left)

namespace Context

mutual

/-- The slots of a token with the texts that components produce. -/
def plainToken (context : Context) : Token → Draw (List Slot)
  | .static text => return [some (.text text)]
  | .style name => do
    let slot ← .ofExcept (context.styleSlot name)
    return [slot]
  | .component name options => do
    let slot ← Component.plain context name options
    return [slot]
  | .conditional condition left right =>
    if context.holds condition then plain context left else plainElse context right
termination_by structural token => token

/-- The slots of tokens in order with the texts that components produce. -/
def plain (context : Context) : List Token → Draw (List Slot)
  | [] => return []
  | token :: rest => do
    let first ← plainToken context token
    let others ← plain context rest
    return first ++ others
termination_by structural tokens => tokens

/-- The slots of a second branch with the texts that components produce. -/
def plainElse (context : Context) : Option (List Token) → Draw (List Slot)
  | none => return []
  | some tokens => plain context tokens
termination_by structural tokens => tokens

end

end Context

/-! ## Segments of escaped slots -/

theorem Fragment.keepsKind_escaped (shell : Shell) : KeepsKind (Fragment.escaped shell) :=
  ⟨fun fragment => by cases fragment <;> rfl, fun fragment => by cases fragment <;> rfl,
    fun fragment => by cases fragment <;> rfl⟩

/-- Escaping has no part in what squashing keeps. -/
theorem Segment.squash_escaped {shell : Shell} (slots : List Slot) :
    squash (slots.map (Slot.escaped shell)) = (squash slots).map (Fragment.escaped shell) :=
  squash_map (Fragment.keepsKind_escaped shell) slots

/-! ## Evaluation escapes what components produce -/

theorem Component.run_eq_plain (context : Context) (name : ComponentName) (options : Options) :
    Component.run context name options =
      Slot.escaped context.shell <$> Component.plain context name options := by
  rw [Component.run, Component.plain, map_bind]
  refine congrArg _ (funext fun ⟨shown, left⟩ => ?_)
  dsimp only
  split
  · rw [map_pure]
    cases shown <;> rfl
  · rfl

namespace Context

/-- The slot of a style keyword is no value. -/
theorem styleSlot_escaped (context : Context) (name : String) :
    (context.styleSlot name).map (Slot.escaped context.shell) = context.styleSlot name := by
  rw [styleSlot]
  cases context.styleSequence name with
  | error error => rfl
  | ok code =>
      by_cases h : name = StyleTable.resetName
      · simp only [Except.map, if_pos h]
        rfl
      · simp only [Except.map, if_neg h]
        rfl

theorem map_ofExcept {α β : Type} (f : α → β) (result : Except RenderError α) :
    f <$> (Action.ofExcept result : Draw α) = .ofExcept (result.map f) := by
  funext access
  cases result <;> rfl

section

variable (context : Context)

theorem evaluateToken_style (name : String) : context.evaluateToken (.style name) =
    Action.ofExcept (context.styleSlot name) >>= fun slot => pure [slot] := rfl

theorem plainToken_style (name : String) : context.plainToken (.style name) =
    Action.ofExcept (context.styleSlot name) >>= fun slot => pure [slot] := rfl

theorem evaluateToken_component (name : ComponentName) (options : Options) :
    context.evaluateToken (.component name options) =
      Component.run context name options >>= fun slot => pure [slot] := rfl

theorem plainToken_component (name : ComponentName) (options : Options) :
    context.plainToken (.component name options) =
      Component.plain context name options >>= fun slot => pure [slot] := rfl

theorem evaluateToken_conditional (condition : Condition) (left : List Token)
    (right : Option (List Token)) : context.evaluateToken (.conditional condition left right) =
      if context.holds condition then context.evaluate left else context.evaluateElse right := rfl

theorem plainToken_conditional (condition : Condition) (left : List Token)
    (right : Option (List Token)) : context.plainToken (.conditional condition left right) =
      if context.holds condition then context.plain left else context.plainElse right := rfl

theorem evaluate_cons (token : Token) (rest : List Token) : context.evaluate (token :: rest) =
    context.evaluateToken token >>= fun first =>
      context.evaluate rest >>= fun others => pure (first ++ others) := rfl

theorem plain_cons (token : Token) (rest : List Token) : context.plain (token :: rest) =
    context.plainToken token >>= fun first =>
      context.plain rest >>= fun others => pure (first ++ others) := rfl

end

mutual

theorem evaluateToken_eq_plain (context : Context) : ∀ token,
    context.evaluateToken token = List.map (Slot.escaped context.shell) <$> context.plainToken token
  | .static text => rfl
  | .style name => by
      rw [evaluateToken_style, plainToken_style, map_bind]
      conv => lhs; rw [← styleSlot_escaped, ← map_ofExcept, bind_map_left]
      rfl
  | .component name options => by
      rw [evaluateToken_component, plainToken_component, map_bind, Component.run_eq_plain,
        bind_map_left]
      rfl
  | .conditional condition left right => by
      have hleft := evaluate_eq_plain context left
      have hright := evaluateElse_eq_plain context right
      rw [evaluateToken_conditional, plainToken_conditional, hleft, hright]
      split <;> rfl

theorem evaluate_eq_plain (context : Context) : ∀ tokens,
    context.evaluate tokens = List.map (Slot.escaped context.shell) <$> context.plain tokens
  | [] => rfl
  | token :: rest => by
      have hfirst := evaluateToken_eq_plain context token
      have hrest := evaluate_eq_plain context rest
      rw [evaluate_cons, plain_cons, hfirst, hrest]
      simp only [bind_map_left, map_bind, map_pure, List.map_append]

theorem evaluateElse_eq_plain (context : Context) : ∀ tokens,
    context.evaluateElse tokens = List.map (Slot.escaped context.shell) <$> context.plainElse tokens
  | none => rfl
  | some tokens => evaluate_eq_plain context tokens

end

/-- The fragments of a prompt that stay, with the texts that components produce. -/
def staying (context : Context) (tokens : List Token) : Draw (List Fragment) :=
  Segment.squash <$> context.plain tokens

/-- A prompt is what stays of it, with values escaped. -/
theorem render_eq_staying (context : Context) (tokens : List Token) :
    context.render tokens = (fun fragments =>
      Fragment.render (fragments.map (Fragment.escaped context.shell))) <$>
        context.staying tokens := by
  have hrender : context.render tokens =
      (fun slots => Fragment.render (Segment.squash slots)) <$> context.evaluate tokens := rfl
  rw [hrender, evaluate_eq_plain, staying, Functor.map_map, Functor.map_map]
  simp only [Segment.squash_escaped]

end Context

end ShellPrompt
