import ShellPrompt.Fragment.Segment
import ShellPrompt.Prompt.Component

/-!
Drawing a prompt: the tokens of a template become slots in order, a conditional those of the branch
that its condition chooses; then segments with nothing to show go, and the rest is written out.
-/

namespace ShellPrompt

namespace Context

/-- The slot of a style keyword. -/
def styleSlot (context : Context) (name : String) : Except RenderError Slot :=
  (context.styleSequence name).map fun code =>
    some (if name = StyleTable.resetName then .reset code else .start code)

mutual

/-- The slots of a token. -/
def evaluateToken (context : Context) : Token → Draw (List Slot)
  | .static text => return [some (.text text)]
  | .style name => do
    let slot ← .ofExcept (context.styleSlot name)
    return [slot]
  | .component name options => do
    let slot ← Component.run context name options
    return [slot]
  | .conditional condition left right =>
    if context.holds condition then evaluate context left else evaluateElse context right
termination_by structural token => token

/-- The slots of tokens in order. -/
def evaluate (context : Context) : List Token → Draw (List Slot)
  | [] => return []
  | token :: rest => do
    let first ← evaluateToken context token
    let others ← evaluate context rest
    return first ++ others
termination_by structural tokens => tokens

/-- The slots of a second branch, none if there is no such branch. -/
def evaluateElse (context : Context) : Option (List Token) → Draw (List Slot)
  | none => return []
  | some tokens => evaluate context tokens
termination_by structural tokens => tokens

end

/-- The prompt that a token tree describes. -/
def render (context : Context) (tokens : List Token) : Draw String := do
  let slots ← context.evaluate tokens
  return Fragment.render (Segment.squash slots)

end Context

end ShellPrompt
