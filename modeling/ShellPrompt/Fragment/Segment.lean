import ShellPrompt.Fragment.Basic

/-!
Segments and squashing. The markers of styles divide the slots of a prompt into segments: text and
components with the style around them. A segment goes as a whole when all its components have
nothing to show, so that no decoration is left over; a segment without components stays.
-/

namespace ShellPrompt

/-- Slots that stay or go together. -/
abbrev Segment := List Slot

namespace Segment

/-- Divides slots into segments, where `current` has been begun. The start of a style begins a
segment unless that is empty still; a reset closes the segment it belongs to. -/
def groupFrom (current : Segment) : List Slot → List Segment
  | [] => if current.isEmpty then [] else [current]
  | slot :: rest =>
    if slot.isStart then
      if current.isEmpty then groupFrom [slot] rest else current :: groupFrom [slot] rest
    else if slot.isReset then (current ++ [slot]) :: groupFrom [] rest
    else groupFrom (current ++ [slot]) rest

/-- Divides slots into segments. -/
def group (slots : List Slot) : List Segment := groupFrom [] slots

/-- Whether a segment stays: a component in it shows something, or nothing in it is missing. -/
def keep (segment : Segment) : Bool := segment.any Slot.isValue || segment.all Option.isSome

/-- The fragments of the segments that stay. -/
def squash (slots : List Slot) : List Fragment :=
  ((group slots).filter keep).flatMap fun segment => segment.filterMap id

end Segment

end ShellPrompt
