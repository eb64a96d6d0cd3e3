import ShellPrompt.Number.Integer
import ShellPrompt.Text.LetterCase

/-!
Colors and text attributes of a terminal. The palette has 256 colors; its first sixteen have names,
eight plain and eight bright ones.
-/

namespace ShellPrompt

/-- The colors that every terminal has. -/
inductive BaseColor where
  | black | red | green | yellow | blue | magenta | cyan | white
deriving DecidableEq, Repr

namespace BaseColor

/-- The base colors in the order of the palette. -/
def all : List BaseColor := [black, red, green, yellow, blue, magenta, cyan, white]

/-- The name of a base color. -/
def name : BaseColor → String
  | black => "black"
  | red => "red"
  | green => "green"
  | yellow => "yellow"
  | blue => "blue"
  | magenta => "magenta"
  | cyan => "cyan"
  | white => "white"

/-- The place of a base color in the palette. -/
def index : BaseColor → Nat
  | black => 0
  | red => 1
  | green => 2
  | yellow => 3
  | blue => 4
  | magenta => 5
  | cyan => 6
  | white => 7

/-- The base color of a name. -/
def ofName? (name : String) : Option BaseColor := all.find? (·.name = name)

/-- Eight places after a base color comes its bright variant. -/
def brightName (color : BaseColor) : String := "bright " ++ color.name

end BaseColor

/-- Ways to set off text other than by color. -/
inductive Attribute where
  | bold | dim | italic | underline | blink | reverse | hidden | strikethrough
deriving DecidableEq, Repr

namespace Attribute

/-- The attributes in the order of their codes. -/
def all : List Attribute := [bold, dim, italic, underline, blink, reverse, hidden, strikethrough]

/-- The name of an attribute. -/
def name : Attribute → String
  | bold => "bold"
  | dim => "dim"
  | italic => "italic"
  | underline => "underline"
  | blink => "blink"
  | reverse => "reverse"
  | hidden => "hidden"
  | strikethrough => "strikethrough"

/-- The parameter that switches an attribute on. -/
def code : Attribute → Nat
  | bold => 1
  | dim => 2
  | italic => 3
  | underline => 4
  | blink => 5
  | reverse => 7
  | hidden => 8
  | strikethrough => 9

/-- The attribute that a word names; `inverse` is another word for `reverse`. -/
def ofWord? (word : String) : Option Attribute :=
  if word = "inverse" then some reverse else all.find? (·.name = word)

end Attribute

/-- The greatest index of the palette. -/
def paletteMax : Nat := 255

/-- The palette index of a color name. `gray` and `grey` are bright black. -/
def paletteIndex? (name : String) : Option Nat :=
  match BaseColor.ofName? name with
  | some color => some color.index
  | none =>
    if name = "gray" ∨ name = "grey" then some 8
    else (BaseColor.all.find? (·.brightName = name)).map (·.index + 8)

/-- A color as it is written: by a name, or by a number that may lie outside the palette. -/
inductive ColorRef where
  | named (name : String)
  | index (n : Int)
deriving DecidableEq, Repr

/-- What a color is given to: the characters or what is behind them. -/
inductive Ground where
  | foreground | background
deriving DecidableEq, Repr

namespace Ground

/-- The parameter of the first plain color. -/
def plainBase : Ground → Nat
  | foreground => 30
  | background => 40

/-- The parameter of the first bright color. -/
def brightBase : Ground → Nat
  | foreground => 90
  | background => 100

/-- The parameter in front of a palette index. -/
def paletteMark : Ground → Nat
  | foreground => 38
  | background => 48

end Ground

/-- The parameters that select a palette color, none outside the palette. -/
def indexParameter (ground : Ground) (n : Int) : Option String :=
  if 0 ≤ n ∧ n ≤ 7 then some (toString (ground.plainBase + n.toNat))
  else if 8 ≤ n ∧ n ≤ 15 then some (toString (ground.brightBase + (n.toNat - 8)))
  else if 16 ≤ n ∧ n ≤ paletteMax then
    some (toString ground.paletteMark ++ ";5;" ++ toString n.toNat)
  else none

/-- The parameters that select a color. A name in any letter case is looked up, and one of digits
is read as an index; any other name selects nothing. -/
def ColorRef.parameter (ground : Ground) : ColorRef → Except NumeralError (Option String)
  | index n => .ok (indexParameter ground n)
  | named name =>
    let word := Text.toLower name
    match paletteIndex? word with
    | some n => .ok (indexParameter ground n)
    | none =>
      if word ≠ "" ∧ word.toList.all Text.isDigit then
        (Numeral.read 10 word).map (indexParameter ground)
      else .ok none

end ShellPrompt
