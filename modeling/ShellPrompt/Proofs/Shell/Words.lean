import Mathlib.Data.List.Forall2
import ShellPrompt.Proofs.Text.Split
import ShellPrompt.Shell.Words

/-! # How a shell reads words

A command line is read character by character. Blanks end words, quotes and backslashes take
characters as they are, and in double quotes a dollar sign and a name stand for the value of a
parameter. A line with anything else in it, such as an operator, a command substitution or a
pattern, is more than words and is refused. What a word means as the first of a command, say with an
equals sign in it, is asked only behind that. A quoted word is read as the word. -/

namespace ShellPrompt.Shell

/-- Where in a word a reader is: what surrounds the next character. -/
inductive Quoting where
  | outside
  | backslash
  | single
  | double
  | doubleBackslash
  /-- in double quotes, behind a dollar sign and part of a name -/
  | parameter (name : List Char)
deriving DecidableEq

/-- What has been read of a command line: complete words, and the characters of a word that has
begun. -/
structure WordReader where
  complete : List String := []
  begun : Option (List Char) := none
  quoting : Quoting := .outside

namespace WordReader

/-- The words, the last one included. -/
def words (reader : WordReader) : List String :=
  reader.complete ++ (reader.begun.map String.ofList).toList

/-- Puts characters at the end of the word, which begins if none has begun. -/
def add (reader : WordReader) (text : List Char) (quoting : Quoting) : WordReader :=
  { reader with begun := some (reader.begun.getD [] ++ text), quoting }

/-- The characters that mean something to a shell where they are not quoted, apart from blanks,
quotes and the backslash. -/
def meaningful : List Char :=
  ['|', '&', ';', '<', '>', '(', ')', '$', '\x60', '\n', '*', '?', '[', ']', '^', '!', '#', '~',
    '\x7b', '\x7d']

/-- Whether the name of a parameter goes on with a character. It does not begin with a digit. -/
def continues (name : List Char) (c : Char) : Bool :=
  c.isAlpha || c == '_' || (!name.isEmpty && c.isDigit)

/-- Reads a character outside of quotes. -/
def stepOutside (reader : WordReader) (c : Char) : Option WordReader :=
  if c = ' ' ∨ c = '\t' then some { complete := reader.words }
  else if c = '\'' then some (reader.add [] .single)
  else if c = '"' then some (reader.add [] .double)
  else if c = '\\' then some { reader with quoting := .backslash }
  else if c ∈ meaningful then none
  else some (reader.add [c] .outside)

/-- Reads a character in double quotes. -/
def stepDouble (reader : WordReader) (c : Char) : Option WordReader :=
  if c = '"' then some (reader.add [] .outside)
  else if c = '\\' then some (reader.add [] .doubleBackslash)
  else if c = '$' then some (reader.add [] (.parameter []))
  else if c = '\x60' then none
  else some (reader.add [c] .double)

/-- Reads a character, where parameters have the given values. -/
def step (values : String → String) (reader : WordReader) (c : Char) : Option WordReader :=
  match reader.quoting with
  | .outside => reader.stepOutside c
  | .backslash =>
    if c = '\n' then some { reader with quoting := .outside } else some (reader.add [c] .outside)
  | .single => some (if c = '\'' then reader.add [] .outside else reader.add [c] .single)
  | .double => reader.stepDouble c
  | .doubleBackslash =>
    if c = '\n' then some (reader.add [] .double)
    else if c = '$' ∨ c = '\x60' ∨ c = '"' ∨ c = '\\' then some (reader.add [c] .double)
    else some (reader.add ['\\', c] .double)
  | .parameter name =>
    if continues name c then some (reader.add [] (.parameter (name ++ [c])))
    else if name = [] then none
    else (reader.add (values (String.ofList name)).toList .double).stepDouble c

end WordReader

/-- The words of a command line, none where it is more than words or where a quote is not closed. -/
def words? (values : String → String) (line : List Char) : Option (List String) :=
  (line.foldlM (WordReader.step values) {}).bind fun reader =>
    if reader.quoting = .outside then some reader.words else none

/-! ## Texts that spell words -/

/-- A text that is read as the given words, if it is followed by a blank or nothing. -/
def Spells (values : String → String) (text : List Char) (words : List String) : Prop :=
  ∀ complete, ∃ reader, text.foldlM (WordReader.step values) { complete } = some reader ∧
    reader.quoting = .outside ∧ reader.words = complete ++ words

section

variable {values : String → String} {text rest : List Char} {words more : List String}

theorem spells_nil : Spells values [] [] :=
  fun complete => ⟨{ complete }, rfl, rfl, rfl⟩

theorem Spells.words?_eq (h : Spells values text words) : words? values text = some words := by
  obtain ⟨reader, hread, hquoting, hwords⟩ := h []
  rw [words?, hread, Option.bind_some, if_pos hquoting, hwords, List.nil_append]

/-- A blank ends a word. -/
theorem Spells.append (h : Spells values text words) (hrest : Spells values rest more) :
    Spells values (text ++ ' ' :: rest) (words ++ more) := by
  intro complete
  obtain ⟨reader, hread, hquoting, hwords⟩ := h complete
  obtain ⟨last, hlast, hlastQuoting, hlastWords⟩ := hrest (complete ++ words)
  refine ⟨last, ?_, hlastQuoting, by rw [hlastWords, List.append_assoc]⟩
  have hblank : reader.step values ' ' = some { complete := complete ++ words } := by
    rw [WordReader.step, hquoting, ← hwords]
    rfl
  rw [List.foldlM_append, hread, Option.bind_eq_bind, Option.bind_some, List.foldlM_cons, hblank,
    Option.bind_eq_bind, Option.bind_some, hlast]

theorem spells_join {texts : List String}
    (h : List.Forall₂ (fun text word => Spells values text.toList [word]) texts words) :
    Spells values (Text.join " " texts).toList words := by
  induction h with
  | nil => exact spells_nil
  | @cons text word texts words hword hwords ih =>
      by_cases htexts : texts = []
      · subst htexts
        cases hwords
        exact hword
      · have hlist : (Text.join " " (text :: texts)).toList =
            text.toList ++ ' ' :: (Text.join " " texts).toList := by
          simp [Text.join_cons text htexts]
        rw [hlist]
        exact hword.append ih

end

/-! ## Quoted words -/

namespace WordReader

variable {values : String → String} {reader : WordReader}

@[simp] theorem add_quoting (reader : WordReader) (text : List Char) (quoting : Quoting) :
    (reader.add text quoting).quoting = quoting := rfl

@[simp] theorem add_add (reader : WordReader) (first second : List Char) (before after : Quoting) :
    (reader.add first before).add second after = reader.add (first ++ second) after := by
  simp [add]

theorem step_of_isHarmless {c : Char} (hreader : reader.quoting = .outside)
    (hc : isHarmless c = true) : reader.step values c = some (reader.add [c] .outside) := by
  have hspecial :
      (' ' :: '\t' :: '\'' :: '"' :: '\\' :: meaningful).all (!isHarmless ·) = true := by decide
  have hplain : c ∉ ' ' :: '\t' :: '\'' :: '"' :: '\\' :: meaningful := by
    intro hmem
    have hharmless := List.all_eq_true.mp hspecial c hmem
    rw [hc] at hharmless
    cases hharmless
  simp only [List.mem_cons, not_or] at hplain
  obtain ⟨hblank, htab, hsingle, hdouble, hslash, hmeaningful⟩ := hplain
  rw [step, hreader]
  simp only [stepOutside, hblank, htab, hsingle, hdouble, hslash, hmeaningful, or_self, if_false]

theorem foldlM_of_isHarmless {word : List Char} (hreader : reader.quoting = .outside)
    (hne : word ≠ []) (hword : ∀ c ∈ word, isHarmless c = true) :
    word.foldlM (step values) reader = some (reader.add word .outside) := by
  induction word generalizing reader with
  | nil => exact absurd rfl hne
  | cons c rest ih =>
      obtain ⟨hc, hrest⟩ := List.forall_mem_cons.mp hword
      rw [List.foldlM_cons, step_of_isHarmless hreader hc, Option.bind_eq_bind, Option.bind_some]
      by_cases hnil : rest = []
      · subst hnil
        rfl
      · rw [ih rfl hnil hrest, add_add, List.singleton_append]

theorem foldlM_quotedChar (reader : WordReader) (c : Char) :
    (quotedChar c).foldlM (step values) (reader.add [] .single) =
      some (reader.add [c] .single) := by
  unfold quotedChar
  split
  · rename_i hc
    subst hc
    simp [step, stepOutside, stepDouble]
  · rename_i hc
    simp [step, hc]

theorem foldlM_quotedChars (reader : WordReader) (word : List Char) :
    (word.flatMap quotedChar).foldlM (step values) (reader.add [] .single) =
      some (reader.add word .single) := by
  induction word generalizing reader with
  | nil => rfl
  | cons c rest ih =>
      have hrest := ih (reader.add [c] .outside)
      rw [add_add, add_add, List.append_nil, List.singleton_append] at hrest
      rw [List.flatMap_cons, List.foldlM_append, foldlM_quotedChar, Option.bind_eq_bind,
        Option.bind_some, hrest]

/-- Names of parameters: letters, digits and underscores, and no digit in front. -/
def isName : List Char → Bool
  | [] => false
  | c :: rest => continues [] c && rest.all (continues [c])

theorem foldlM_continues {name rest : List Char} (hne : name ≠ [])
    (h : ∀ c ∈ rest, continues name c = true) :
    rest.foldlM (step values) (reader.add [] (.parameter name)) =
      some (reader.add [] (.parameter (name ++ rest))) := by
  induction rest generalizing name with
  | nil => rw [List.append_nil]; rfl
  | cons c rest ih =>
      obtain ⟨hc, hrest⟩ := List.forall_mem_cons.mp h
      have hempty : name.isEmpty = false := by simpa using hne
      have hnext : ∀ d ∈ rest, continues (name ++ [c]) d = true := by
        intro d hd
        simpa [continues, hempty] using hrest d hd
      rw [List.foldlM_cons, step, add_quoting]
      simp only [hc, if_true, add_add, List.append_nil, Option.bind_eq_bind, Option.bind_some]
      rw [ih (by simp) hnext, List.append_assoc, List.singleton_append]

theorem foldlM_isName {name : List Char} (h : isName name = true) :
    name.foldlM (step values) (reader.add [] (.parameter [])) =
      some (reader.add [] (.parameter name)) := by
  cases name with
  | nil => cases h
  | cons c rest =>
      rw [isName, Bool.and_eq_true, List.all_eq_true] at h
      rw [List.foldlM_cons, step, add_quoting]
      simp only [h.1, if_true, add_add, List.append_nil, Option.bind_eq_bind, Option.bind_some]
      exact foldlM_continues (by simp) h.2

theorem step_quote_of_isName {name : List Char} (h : isName name = true) :
    (reader.add [] (.parameter name)).step values '"' =
      some (reader.add (values (String.ofList name)).toList .outside) := by
  have hne : name ≠ [] := by
    rintro rfl
    cases h
  have hquote : continues name '"' = false := by simp [continues]
  rw [step, add_quoting]
  simp [hquote, hne, stepDouble]

end WordReader

section

variable {values : String → String}

theorem spells_of_isHarmless {word : String} (hne : word ≠ "")
    (hword : word.toList.all isHarmless = true) : Spells values word.toList [word] := by
  intro complete
  have hne : word.toList ≠ [] := by simpa using hne
  refine ⟨_, WordReader.foldlM_of_isHarmless rfl hne (List.all_eq_true.mp hword), rfl, ?_⟩
  simp [WordReader.words, WordReader.add]

/-- A quoted word is read as the word. -/
theorem spells_quote (word : String) : Spells values (quote word).toList [word] := by
  rw [quote, String.toList_ofList, quoteChars]
  split
  · rename_i hword
    obtain rfl : word = "" := String.toList_eq_nil_iff.mp hword
    exact fun complete => ⟨_, rfl, rfl, by simp [WordReader.words, WordReader.add]⟩
  · rename_i hword
    split
    · rename_i hharmless
      exact spells_of_isHarmless (fun h => hword (by rw [h]; rfl)) hharmless
    · intro complete
      refine ⟨({ complete } : WordReader).add word.toList .outside, ?_, rfl, ?_⟩
      · have hopen : WordReader.step values { complete } '\'' =
            some (({ complete } : WordReader).add [] .single) := rfl
        have hclose : (({ complete } : WordReader).add word.toList .single).step values '\'' =
            some (({ complete } : WordReader).add word.toList .outside) := by
          simp [WordReader.step]
        rw [List.cons_append, List.foldlM_cons, hopen, Option.bind_eq_bind, Option.bind_some,
          List.foldlM_append, WordReader.foldlM_quotedChars, Option.bind_eq_bind, Option.bind_some,
          List.foldlM_cons, hclose]
        rfl
      · simp [WordReader.words, WordReader.add]

theorem spells_commandLine (values : String → String) (command : List String) :
    Spells values (commandLine command).toList command := by
  apply spells_join
  rw [List.forall₂_map_left_iff]
  exact List.forall₂_same.mpr fun word _ => spells_quote word

/-- A parameter in double quotes is one word. -/
theorem spells_parameter (name : String) (hname : WordReader.isName name.toList = true) :
    Spells values ("\"$" ++ name ++ "\"").toList [values name] := by
  intro complete
  refine ⟨({ complete } : WordReader).add (values name).toList .outside, ?_, rfl, ?_⟩
  · have hopen : "\"$".toList.foldlM (WordReader.step values) { complete } =
        some (({ complete } : WordReader).add [] (.parameter [])) := rfl
    have hclose : ['"'].foldlM (WordReader.step values)
        (({ complete } : WordReader).add [] (.parameter name.toList)) =
        some (({ complete } : WordReader).add (values name).toList .outside) := by
      rw [List.foldlM_cons, WordReader.step_quote_of_isName hname, String.ofList_toList]
      rfl
    have hlast : "\"".toList = ['"'] := rfl
    rw [String.toList_append, String.toList_append, List.append_assoc, List.foldlM_append, hopen,
      Option.bind_eq_bind, Option.bind_some, List.foldlM_append, WordReader.foldlM_isName hname,
      Option.bind_eq_bind, Option.bind_some, hlast, hclose]
  · simp [WordReader.words, WordReader.add]

end

end ShellPrompt.Shell
