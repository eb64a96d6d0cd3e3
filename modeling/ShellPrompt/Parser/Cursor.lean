/-!
A place in a text: how many characters come before it, and the characters that follow.
-/

namespace ShellPrompt

/-- A place in a text that is being read. -/
structure Cursor where
  position : Nat
  rest : List Char
deriving DecidableEq, Repr

namespace Cursor

/-- The place after the first `position` characters of a text. -/
def ofText (text : List Char) (position : Nat) : Cursor := ⟨position, text.drop position⟩

/-- The place `count` characters further on. -/
def advance (cursor : Cursor) (count : Nat) : Cursor :=
  ⟨cursor.position + count, cursor.rest.drop count⟩

/-- Whether no character follows. -/
def atEnd (cursor : Cursor) : Bool := cursor.rest.isEmpty

@[simp] theorem advance_position (cursor : Cursor) (count : Nat) :
    (cursor.advance count).position = cursor.position + count := rfl

@[simp] theorem advance_rest (cursor : Cursor) (count : Nat) :
    (cursor.advance count).rest = cursor.rest.drop count := rfl

@[simp] theorem advance_zero (cursor : Cursor) : cursor.advance 0 = cursor := rfl

theorem ofText_advance (text : List Char) (position count : Nat) :
    (ofText text position).advance count = ofText text (position + count) := by
  simp [ofText, advance, List.drop_drop]

end Cursor

end ShellPrompt
