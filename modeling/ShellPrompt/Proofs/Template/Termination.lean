import ShellPrompt.Proofs.Parser.Construction
import ShellPrompt.Proofs.Template.LongestPart
import ShellPrompt.Template.Recipe

/-! # Reading ends

The grammar is built from the primitive parsers with one recursion: the branches of a conditional
hold tokens. They stand behind the conditional's header, which is never empty, so the parser of
tokens runs itself on shorter texts only. From this the run of every parser ends that is built from
those of the grammar, and it stops in the text and does not look at what is in front of it. -/

namespace ShellPrompt.Template

open ShellPrompt.Parser ShellPrompt.Parser.Construction

/-! ## How the grammar is built

The constructions have the names of the parsers that they build. Where the grammar reads tokens
inside a conditional, the construction has the parser that is being defined. -/

namespace Built

def blanks : Construction Token String := .takeWhile Text.isBlank

def blanks1 : Construction Token String := .takeWhile1 Text.isBlank

def identifier : Construction Token String :=
  (Construction.takeWhile1 isIdentifierChar).verify fun name => !reservedWords.contains name

def static : Construction Token Token := (Construction.noneOf ['{']).map .static

def doubledBrace : Construction Token Token := (Construction.tag "\x7b\x7b").map .static

def optionKey : Construction Token String :=
  .takeWhile1 fun c => !(c == '=' || c == '}') && !Text.isBlank c

def optionValue : Construction Token String := .noneOf ['}', ' ']

def option : Construction Token (String × String) :=
  .preceded blanks1 (.both (.terminated optionKey (.tag "=")) optionValue)

def ifStart : Construction Token (String × String × String) :=
  .both (.tag "\x7b") (.both blanks (.tag "if"))

def ifCondition : Construction Token Condition :=
  .terminated (.preceded blanks (identifier.filterMap Condition.ofIdentifier?)) (.tag "\x7d")

def elseTag : Construction Token String := .tag "\x7belse\x7d"

def endTag : Construction Token String := .tag "\x7bend\x7d"

def componentName : Construction Token ComponentName :=
  .preceded (.both (.tag "\x7b") blanks) (identifier.filterMap ComponentName.ofIdentifier?)

def componentOptions : Construction Token (List (String × String)) :=
  .terminated (.many option) (.both blanks (.tag "\x7d"))

def component : Construction Token Token :=
  (Construction.both componentName componentOptions).map fun (name, pairs) =>
    .component name (.ofPairs pairs)

def style (styles : StyleTable) : Construction Token Token :=
  (Construction.terminated
    (.preceded (.both (.tag "\x7b") blanks) (identifier.verify styles.contains))
    (.both blanks (.tag "\x7d"))).map .style

def tokens : Construction Token (List Token) := .many1 .self

def elseBranch : Construction Token (List Token) := .preceded elseTag tokens

def conditional : Construction Token Token :=
  (Construction.both (.preceded ifStart ifCondition)
    (.both tokens (.terminated (.optional elseBranch) endTag))).map
      fun (condition, left, right) => .conditional condition left right

def token (styles : StyleTable) : Construction Token Token :=
  .firstOf [static, doubledBrace, style styles, conditional, component]

end Built

variable {styles : StyleTable} {α : Type}

theorem parser_token (styles : StyleTable) (s : Parser Token) :
    (Built.token styles).parser s = tokenOf styles s := by
  rw [Built.token, Construction.parser_firstOf]
  rfl

section

variable {s : Parser Token}

theorem guarded_component : Built.component.Guarded s := by
  have hname : Built.componentName.Guarded s := Guarded.preceded (.both trivial trivial) trivial
  have hoption : Built.option.Guarded s :=
    Guarded.preceded trivial (.both (.terminated trivial trivial) trivial)
  have hoptions : Built.componentOptions.Guarded s :=
    Guarded.terminated hoption (.both trivial trivial)
  exact hname.both hoptions

theorem guarded_style (styles : StyleTable) : (Built.style styles).Guarded s :=
  Guarded.terminated (.preceded (.both trivial trivial) trivial) (.both trivial trivial)

/-- A conditional runs the parser of tokens behind its header only. -/
theorem guarded_conditional : Built.conditional.Guarded s := by
  have hstart : Built.ifStart.Guarded s := Guarded.both trivial (.both trivial trivial)
  have hcondition : Built.ifCondition.Guarded s :=
    Guarded.terminated (.preceded trivial trivial) trivial
  have hconsumes : Consumes ((Construction.preceded Built.ifStart Built.ifCondition).parser s) :=
    fun _ _ _ h => header_length_lt h
  exact ⟨hstart.preceded hcondition, .inr hconsumes⟩

theorem guarded_token (styles : StyleTable) : (Built.token styles).Guarded s :=
  ⟨trivial, trivial, guarded_style styles, guarded_conditional, guarded_component, trivial⟩

end

theorem local_tokenOf {inner : Parser Token} (hinner : Local inner) :
    Local (tokenOf styles inner) := by
  rw [← parser_token]
  exact Construction.local_construction hinner _

theorem local_token : Local (token styles) := by
  intro start
  induction hlength : start.rest.length using Nat.strong_induction_on generalizing start with
  | _ length ih =>
      subst hlength
      intro offset
      have hinner : Local fun inner : Cursor =>
          if inner.rest.length < start.rest.length then token styles inner else none := by
        intro place offset
        dsimp only
        rw [Cursor.shift_rest]
        split
        · rename_i hplace
          exact ih _ hplace place rfl offset
        · rfl
      rw [token, token]
      exact local_tokenOf hinner start offset

/-! ## Recipes -/

namespace Built

/-- How the parser of a rule is built. -/
def rule (styles : StyleTable) : Rule → Construction Token Outcome
  | .blanks => .map .text blanks
  | .blanks1 => .map .text blanks1
  | .identifier => .map .text identifier
  | .static => .map .token static
  | .doubledBrace => .map .token doubledBrace
  | .optionKey => .map .text optionKey
  | .optionValue => .map .text optionValue
  | .option => .map Outcome.ofPair option
  | .ifStart => .map (fun (a, b, c) => .items [.text a, .text b, .text c]) ifStart
  | .ifCondition => .map .condition ifCondition
  | .elseTag => .map .text elseTag
  | .endTag => .map .text endTag
  | .componentName => .map .component componentName
  | .componentOptions => .map (fun pairs => .items (pairs.map Outcome.ofPair)) componentOptions
  | .component => .map .token component
  | .style => .map .token (style styles)
  | .conditional => .map .token conditional
  | .elseBranch => .map (fun tree => .items (tree.map .token)) elseBranch
  | .token => .map .token .self
  | .tokens => .map (fun tree => .items (tree.map .token)) tokens

mutual

/-- How the parser that a recipe describes is built. -/
def recipe (styles : StyleTable) : Recipe → Construction Token Outcome
  | .tag literal => .map .text (.tag literal)
  | .noneOf chars => .map .text (.noneOf chars)
  | .takeWhile set => .map .text (.takeWhile set.has)
  | .takeWhile1 set => .map .text (.takeWhile1 set.has)
  | .firstOf parts => .firstOf (recipes styles parts)
  | .all parts => .map .items (.all (recipes styles parts))
  | .many part => .map .items (.many (recipe styles part))
  | .many1 part => .map .items (.many1 (recipe styles part))
  | .optional part => .map (·.getD .absent) (.optional (recipe styles part))
  | .preceded first second => .preceded (recipe styles first) (recipe styles second)
  | .terminated first second => .terminated (recipe styles first) (recipe styles second)
  | .convert part conversion => .filterMap conversion.apply? (recipe styles part)
  | .verify part requirement => .verify (recipe styles part) requirement.test
  | .rule name => rule styles name
termination_by structural recipe => recipe

/-- How the parsers that recipes describe are built. -/
def recipes (styles : StyleTable) : List Recipe → List (Construction Token Outcome)
  | [] => []
  | part :: parts => recipe styles part :: recipes styles parts
termination_by structural recipes => recipes

end

end Built

theorem parser_rule (name : Rule) :
    (Built.rule styles name).parser (token styles) = name.parser styles := by
  cases name <;> rfl

mutual

theorem parser_recipe (recipe : Recipe) :
    (Built.recipe styles recipe).parser (token styles) = recipe.parser styles := by
  cases recipe with
  | tag literal => rfl
  | noneOf chars => rfl
  | takeWhile set => rfl
  | takeWhile1 set => rfl
  | firstOf parts => exact (parser_firstOf _).trans (congrArg Parser.firstOf (parser_recipes parts))
  | all parts =>
      exact congrArg (Parser.map Outcome.items)
        ((parser_all _).trans (congrArg Parser.all (parser_recipes parts)))
  | many part =>
      exact congrArg (fun p => (Parser.many p).map Outcome.items) (parser_recipe part)
  | many1 part =>
      exact congrArg (fun p => (Parser.many1 p).map Outcome.items) (parser_recipe part)
  | optional part =>
      exact congrArg (fun p => (Parser.optional p).map (·.getD .absent)) (parser_recipe part)
  | preceded first second =>
      exact congrArg₂ Parser.preceded (parser_recipe first) (parser_recipe second)
  | terminated first second =>
      exact congrArg₂ Parser.terminated (parser_recipe first) (parser_recipe second)
  | convert part conversion =>
      exact congrArg (Parser.filterMap conversion.apply?) (parser_recipe part)
  | verify part requirement =>
      exact congrArg (Parser.verify · requirement.test) (parser_recipe part)
  | rule name => exact parser_rule name

theorem parser_recipes (parts : List Recipe) :
    (Built.recipes styles parts).map (Construction.parser (token styles)) =
      Recipe.parsers styles parts := by
  cases parts with
  | nil => rfl
  | cons part parts => exact congrArg₂ List.cons (parser_recipe part) (parser_recipes parts)

end

/-! ## Every run -/

/-- What is said of a parser and of how it is built, at a place in a text. -/
structure RunSpec (styles : StyleTable) (e : Construction Token α) (p : Parser α)
    (text : List Char) (start : Nat) : Prop where
  /-- The run ends, in what the parser yields and in nothing else. -/
  runs_iff : ∀ result, Runs (Built.token styles) e (.ofText text start) result ↔
    p (.ofText text start) = result
  /-- It stops in the text, and not before it starts. -/
  within : ∀ value stop, p (.ofText text start) = some (value, stop) →
    ∃ place, start ≤ place ∧ place ≤ text.length ∧ stop = .ofText text place
  /-- What it comes to is known from what follows the place. -/
  suffix : p (.ofText text start) =
    (p (.ofText (text.drop start) 0)).map fun (value, stop) => (value, stop.shift start)

theorem runSpec_of_parser_eq {e : Construction Token α} {p : Parser α} {text : List Char}
    {start : Nat} (hp : e.parser (token styles) = p) (hstart : start ≤ text.length) :
    RunSpec styles e p text start := by
  subst hp
  have hbody : ∀ place, token styles place = (Built.token styles).parser (token styles) place :=
    fun place => token_eq.trans (congrFun (parser_token styles (token styles)) place).symm
  exact {
    runs_iff := fun _ => runs_iff advances_token hbody (guarded_token styles) e _ _
    within := fun _ _ h => (advances_construction advances_token e).within hstart h
    suffix := (local_construction local_token e).ofText text start }

/-- From every place in a text, the runs of all parsers end that are built from the primitive ones
and the parser of tokens: those that recipes describe and those of the grammar are among them. -/
theorem runSpec_from_place (styles : StyleTable) (text : List Char) (start : Nat)
    (hstart : start ≤ text.length) :
    (∀ {α : Type} (e : Construction Token α),
      RunSpec styles e (e.parser (token styles)) text start) ∧
    (∀ recipe : Recipe,
      RunSpec styles (Built.recipe styles recipe) (recipe.parser styles) text start) ∧
    RunSpec styles .self (token styles) text start ∧
    RunSpec styles Built.tokens (tokens styles) text start ∧
    RunSpec styles Built.conditional (conditional styles) text start ∧
    RunSpec styles Built.elseBranch (elseBranch styles) text start := by
  refine ⟨fun e => ?_, fun recipe => ?_, ?_, ?_, ?_, ?_⟩
  · exact runSpec_of_parser_eq rfl hstart
  · exact runSpec_of_parser_eq (parser_recipe recipe) hstart
  · exact runSpec_of_parser_eq rfl hstart
  · exact runSpec_of_parser_eq rfl hstart
  · exact runSpec_of_parser_eq rfl hstart
  · exact runSpec_of_parser_eq rfl hstart

/-- Repeating a parser that reads nothing ends where it starts. -/
theorem runSpec_from_place_idle :
    1 ≤ "ab".toList.length ∧
      RunSpec .builtin Built.tokens (tokens .builtin) "ab".toList 1 ∧
      Runs (Built.token .builtin) Built.tokens (.ofText "ab".toList 1)
        (some ([.static "b"], .ofText "ab".toList 2)) ∧
      Runs (Built.token .builtin) (.many (.takeWhile Text.isBlank)) (.ofText "ab".toList 1)
        (some ([], .ofText "ab".toList 1)) := by
  have hstart : 1 ≤ "ab".toList.length := by decide
  obtain ⟨hbuilt, _, _, htokens, _⟩ := runSpec_from_place .builtin "ab".toList 1 hstart
  have hfirst : token .builtin (.ofText "ab".toList 1) =
      some (.static "b", .ofText "ab".toList 2) := token_eq.trans (firstOf_cons_of_some rfl)
  have hlast : Repeats (token .builtin) (.ofText "ab".toList 2) [] (.ofText "ab".toList 2) :=
    repeats_nil_of_next? (by simp [Cursor.ofText, next?])
  refine ⟨hstart, htokens, (htokens.runs_iff _).mpr ?_, ((hbuilt _).runs_iff _).mpr ?_⟩
  · exact many1_eq_some_iff.mpr ⟨.more hfirst (by decide) hlast, by simp⟩
  · refine many_eq_some_iff.mpr (.done fun value next h => ?_)
    obtain ⟨-, rfl⟩ := Prod.mk.inj (Option.some.inj h)
    decide

end ShellPrompt.Template
