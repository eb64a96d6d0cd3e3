import ShellPrompt.Text.Blank

/-!
Cutting a text into words, lines and fields.

Words are maximal runs without white space. Lines end at a line boundary, and an unfinished last
line counts. Fields are separated by one character, so there is always one field more than there
are separators.
-/

namespace ShellPrompt.Text

/-- Puts a character in front of the first piece. -/
def consHead (c : Char) : List (List Char) → List (List Char)
  | [] => [[c]]
  | piece :: pieces => (c :: piece) :: pieces

/-- The maximal runs without white space. -/
def wordRuns : List Char → List (List Char)
  | [] => []
  | c :: rest =>
    if isBlank c then wordRuns rest
    else match rest with
      | [] => [[c]]
      | d :: _ => if isBlank d then [c] :: wordRuns rest else consHead c (wordRuns rest)

/-- The words of a text. -/
def words (text : String) : List String := (wordRuns text.toList).map String.ofList

/-- The lines of a text without their ends. -/
def lineRuns : List Char → List (List Char)
  | [] => []
  | '\r' :: '\n' :: rest => [] :: lineRuns rest
  | c :: rest => if isLineEnd c then [] :: lineRuns rest else consHead c (lineRuns rest)

/-- The lines of a text. -/
def lines (text : String) : List String := (lineRuns text.toList).map String.ofList

/-- The pieces between separators. -/
def fieldRuns (separator : Char) : List Char → List (List Char)
  | [] => [[]]
  | c :: rest =>
    if c = separator then [] :: fieldRuns separator rest
    else consHead c (fieldRuns separator rest)

/-- The pieces of a text between separators. -/
def fields (separator : Char) (text : String) : List String :=
  (fieldRuns separator text.toList).map String.ofList

/-- A list without the items at either end that satisfy a test. -/
def stripWhile {α : Type} (test : α → Bool) (items : List α) : List α :=
  ((items.dropWhile test).reverse.dropWhile test).reverse

/-- A text without white space at either end. -/
def trim (text : String) : String := String.ofList (stripWhile isBlank text.toList)

/-- The texts in order with a separator between neighbours. -/
def join (separator : String) : List String → String
  | [] => ""
  | [text] => text
  | text :: rest => text ++ separator ++ join separator rest

@[simp] theorem wordRuns_nil : wordRuns [] = [] := rfl

@[simp] theorem lineRuns_nil : lineRuns [] = [] := rfl

@[simp] theorem fieldRuns_nil (separator : Char) : fieldRuns separator [] = [[]] := rfl

theorem forall_not_isBlank_of_mem_wordRuns {text word : List Char} (h : word ∈ wordRuns text) :
    word ≠ [] ∧ ∀ c ∈ word, isBlank c = false := by
  induction text generalizing word with
  | nil => simp at h
  | cons c rest ih =>
    by_cases hc : isBlank c = true
    · exact ih (by simpa [wordRuns, hc] using h)
    · have hc' : isBlank c = false := by simpa using hc
      cases rest with
      | nil => simp [wordRuns, hc'] at h; subst h; simp [hc']
      | cons d tail =>
        by_cases hd : isBlank d = true
        · simp only [wordRuns, hc', hd, if_true, Bool.false_eq_true, if_false,
            List.mem_cons] at h
          rcases h with rfl | h
          · simp [hc']
          · exact ih (by simpa [wordRuns, hd] using h)
        · rw [wordRuns, if_neg hc, if_neg hd] at h
          cases hw : wordRuns (d :: tail) with
          | nil => rw [hw] at h; simp [consHead] at h; subst h; simp [hc']
          | cons w ws =>
            rw [hw] at h ih
            simp only [consHead, List.mem_cons] at h
            rcases h with rfl | h
            · have hw' := ih (List.mem_cons_self)
              refine ⟨by simp, ?_⟩
              intro x hx
              rcases List.mem_cons.1 hx with rfl | hx
              · exact hc'
              · exact hw'.2 x hx
            · exact ih (List.mem_cons_of_mem _ h)

end ShellPrompt.Text
