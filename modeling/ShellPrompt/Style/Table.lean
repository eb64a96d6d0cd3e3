import ShellPrompt.Dictionary
import ShellPrompt.Style.Rendition

/-!
Style keywords. A table knows `reset` and what it maps to renditions: the built-in keywords, which
are the names of colors and attributes, and those a user adds or redefines.
-/

namespace ShellPrompt

/-- Keywords and the renditions they stand for. `reset` is known without an entry. -/
structure StyleTable where
  styles : Dictionary String Rendition

/-- Why a keyword has no escape sequence. -/
inductive StyleError where
  | unknown (name : String)
  | numeral (error : NumeralError)
deriving DecidableEq, Repr

/-- What is wrong with the keyword. -/
def StyleError.message : StyleError → String
  | unknown name => "unknown style: " ++ name
  | numeral error => error.message

namespace StyleTable

/-- The keyword that ends all styles. -/
def resetName : String := "reset"

/-- The escape sequence that ends all styles. -/
def resetSequence : String := "\x1b[0m"

/-- The keywords of a base color: plain and bright. -/
def colorEntries (color : BaseColor) : List (String × Rendition) :=
  [(color.name, { foreground := some (.named color.name) }),
    ("bright_" ++ color.name, { foreground := some (.named color.brightName) })]

/-- Both spellings of the eighth color. -/
def grayEntries : List (String × Rendition) :=
  ["gray", "grey"].map fun name => (name, { foreground := some (.named name) })

/-- The keywords of the attributes; hidden text has none. -/
def attributeEntries : List (String × Rendition) :=
  (Attribute.all.filter (· ≠ .hidden)).map fun attr => (attr.name, { attributes := [attr] })

/-- The keywords that need no configuration. -/
def builtin : StyleTable :=
  ⟨.ofPairs (BaseColor.all.flatMap colorEntries ++ grayEntries ++ attributeEntries)⟩

/-- Adds a keyword by the description of its rendition. -/
def define (table : StyleTable) (name spec : String) : Except SpecError StyleTable :=
  (Rendition.ofSpec spec).map fun look => ⟨table.styles.insert name look⟩

/-- The built-in keywords with others added in order. -/
def ofSpecs (custom : Dictionary String String) : Except SpecError StyleTable :=
  custom.entries.foldlM (fun table entry => table.define entry.1 entry.2) builtin

/-- Whether a keyword is known. -/
def contains (table : StyleTable) (name : String) : Bool :=
  name == resetName || table.styles.contains name

/-- The escape sequence of a keyword. -/
def sequence (table : StyleTable) (name : String) : Except StyleError String :=
  if name = resetName then .ok resetSequence
  else match table.styles.get? name with
    | some look => look.sequence.mapError .numeral
    | none => .error (.unknown name)

theorem contains_iff {table : StyleTable} {name : String} :
    table.contains name = true ↔ name = resetName ∨ table.styles.contains name = true := by
  simp [contains]

end StyleTable

end ShellPrompt
