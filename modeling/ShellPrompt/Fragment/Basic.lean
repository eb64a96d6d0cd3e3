/-!
What the tokens of a template become when a prompt is drawn. A token yields one slot: a fragment of
the prompt, or nothing when a component has nothing to show.
-/

namespace ShellPrompt

/-- A piece of a prompt. -/
inductive Fragment where
  /-- literal text of the template -/
  | text (text : String)
  /-- an escape sequence that starts a style -/
  | start (code : String)
  /-- an escape sequence that ends all styles -/
  | reset (code : String)
  /-- what a component shows -/
  | value (text : String)
deriving DecidableEq, Repr

namespace Fragment

/-- The characters of a fragment. -/
def content : Fragment → String
  | text s | start s | reset s | value s => s

/-- The fragments one after another. -/
def render (fragments : List Fragment) : String :=
  fragments.foldr (fun fragment rest => fragment.content ++ rest) ""

end Fragment

/-- A fragment, or the place of one that is missing. -/
abbrev Slot := Option Fragment

namespace Slot

/-- Whether a slot starts a style. -/
def isStart : Slot → Bool
  | some (.start _) => true
  | _ => false

/-- Whether a slot ends all styles. -/
def isReset : Slot → Bool
  | some (.reset _) => true
  | _ => false

/-- Whether a slot holds what a component shows. -/
def isValue : Slot → Bool
  | some (.value _) => true
  | _ => false

end Slot

end ShellPrompt
