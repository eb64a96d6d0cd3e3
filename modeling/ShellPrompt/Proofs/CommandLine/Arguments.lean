import Mathlib.Data.List.TakeWhile
import ShellPrompt.CommandLine.Arguments

/-! # Arguments and their shapes

A text that does not begin with a dash is never taken for an option. Behind an option that takes a
value stands its value, as long as that is not taken for an option itself. An operand that takes all
that follows takes options, too. -/

namespace ShellPrompt.CommandLine

variable {κ ω : Type} {forms : List (OptionForm κ)}

/-! ## Shapes -/

theorem shapeOf_of_head? {argument : String} (h : argument.toList.head? ≠ some '-') :
    shapeOf forms argument = .argument := by
  have hseparator : argument ≠ "--" := by
    intro heq
    rw [heq] at h
    exact h rfl
  rw [shapeOf, if_neg hseparator, if_pos h]

theorem shapeOf_ne_separator {argument : String} (h : argument ≠ "--") :
    shapeOf forms argument ≠ .separator := by
  unfold shapeOf
  rw [if_neg h]
  split
  · simp
  · split
    · simp
    · split
      · simp
      · dsimp only
        split
        · simp
        · split
          · simp
          · simp
          · split <;> simp

theorem shapes_cons {argument : String} (h : argument ≠ "--") (rest : List String) :
    shapes forms (argument :: rest) =
      (argument, shapeOf forms argument) :: shapes forms rest := by
  rw [shapes]
  cases hshape : shapeOf forms argument with
  | separator => exact (shapeOf_ne_separator h hshape).elim
  | _ => rfl

theorem shapes_cons_of_head? {argument : String} (h : argument.toList.head? ≠ some '-')
    (rest : List String) :
    shapes forms (argument :: rest) = (argument, .argument) :: shapes forms rest := by
  rw [shapes, shapeOf_of_head? h]

theorem shapeOf_of_spelled? {spelling : String} {form : OptionForm κ}
    (h : spelled? forms spelling = some form) (hhead : spelling.toList.head? = some '-')
    (hne : spelling ≠ "--") :
    shapeOf forms spelling = .option ⟨some form, spelling, false, none⟩ := by
  rw [shapeOf, if_neg hne, if_neg (not_not.mpr hhead), h]

theorem shapes_singleton (argument : String) :
    shapes forms [argument] = [(argument, shapeOf forms argument)] := by
  rw [shapes]
  cases shapeOf forms argument <;> rfl

/-- Shapes leave the arguments as they are. -/
theorem map_fst_shapes (arguments : List String) :
    (shapes forms arguments).map Prod.fst = arguments := by
  induction arguments with
  | nil => rfl
  | cons argument rest ih =>
      rw [shapes]
      cases shapeOf forms argument with
      | separator => simp [Function.comp_def]
      | _ => simp [ih]

/-! ## Texts that are taken for options -/

/-- Whether a text is two dashes and a name, or one dash and a letter. -/
def isSpelling : List Char → Bool
  | '-' :: '-' :: _ => true
  | ['-', _] => true
  | _ => false

theorem isSpelling_cases {text : List Char} (h : isSpelling text = true) :
    (∃ name, text = '-' :: '-' :: name) ∨ ∃ letter, text = ['-', letter] := by
  unfold isSpelling at h
  split at h
  · exact .inl ⟨_, rfl⟩
  · exact .inr ⟨_, rfl⟩
  · cases h

/-- All spellings of options are like that. -/
def Regular (forms : List (OptionForm κ)) : Prop :=
  ∀ entry ∈ spellings forms, isSpelling entry.1.toList = true

/-- A spelling, alone or with an equals sign behind it, may mean its option. -/
theorem abbreviations_ne_nil (hforms : Regular forms) {spelling : String} {text : List Char}
    (h : (spelled? forms spelling).isSome = true) (hbegins : spelling.toList <+: text)
    (hstart : (splitEquals text).1 <+: spelling.toList) : abbreviations forms text ≠ [] := by
  obtain ⟨⟨_, form⟩, hmem, hspelling⟩ := List.lookup_isSome_iff.mp h
  obtain rfl := eq_of_beq hspelling
  unfold abbreviations
  split
  · intro hnil
    rw [List.map_eq_nil_iff, List.filter_eq_nil_iff] at hnil
    exact hnil _ hmem (List.isPrefixOf_iff_prefix.mpr hstart)
  · rename_i hsingle
    have hshort : spelling.toList = text.take 2 := by
      obtain ⟨rest, rfl⟩ := hbegins
      rcases isSpelling_cases (hforms _ hmem) with ⟨name, hlong⟩ | ⟨letter, hletter⟩
      · exact (hsingle (name ++ rest) (by rw [hlong]; rfl)).elim
      · rw [hletter]
        rfl
    intro hnil
    rw [List.filterMap_eq_nil_iff] at hnil
    have hnone := hnil _ hmem
    dsimp only at hnone
    rw [if_pos hshort] at hnone
    cases hnone

theorem splitEquals_fst (text : List Char) : (splitEquals text).1 = text.takeWhile (· != '=') := by
  unfold splitEquals
  split
  · rfl
  · rename_i hdrop
    exact (List.takeWhile_eq_self_iff.mpr (List.dropWhile_eq_nil_iff.mp hdrop)).symm

theorem isPrefix_splitEquals (text : List Char) : (splitEquals text).1 <+: text := by
  rw [splitEquals_fst]
  exact List.takeWhile_prefix _

theorem spelled?_dash (hforms : Regular forms) : spelled? forms "-" = none := by
  rw [spelled?, List.lookup_eq_none_iff]
  intro entry hentry
  rw [bne_iff_ne]
  intro heq
  have hspelling := hforms entry hentry
  rw [← heq] at hspelling
  cases hspelling

theorem shapeOf_dash (hforms : Regular forms) : shapeOf forms "-" = .argument := by
  rw [shapeOf, if_neg (by decide), if_neg (by decide), spelled?_dash hforms]
  rfl

theorem length_ne_one {argument : String} (hhead : argument.toList.head? = some '-')
    (hdash : argument ≠ "-") : argument.toList.length ≠ 1 := by
  intro hlength
  obtain ⟨c, hc⟩ := List.length_eq_one_iff.mp hlength
  rw [hc] at hhead
  obtain rfl := Option.some.inj hhead
  exact hdash (String.toList_injective hc)

/-- A text that may mean an option is no argument. -/
theorem isArgument_of_abbreviations_ne_nil {argument : String}
    (hhead : argument.toList.head? = some '-') (hdash : argument ≠ "-")
    (h : abbreviations forms argument.toList ≠ []) :
    isArgument (argument, shapeOf forms argument) = false := by
  unfold shapeOf
  split
  · rfl
  · rw [if_neg (not_not.mpr hhead)]
    split
    · rfl
    · rw [if_neg (length_ne_one hhead hdash)]
      dsimp only
      split
      · rfl
      · split
        · rfl
        · rfl
        · exact (h ‹_›).elim

/-- A text that may not mean an option is an argument if it is a number or has a space. -/
theorem isArgument_of_abbreviations_eq_nil (hforms : Regular forms)
    (hdashes : abbreviations forms ['-', '-'] ≠ []) {argument : String}
    (hhead : argument.toList.head? = some '-') (hdash : argument ≠ "-")
    (h : abbreviations forms argument.toList = []) :
    isArgument (argument, shapeOf forms argument) = true ↔
      isNegativeNumber argument.toList = true ∨ ' ' ∈ argument.toList := by
  have hseparator : argument ≠ "--" := by
    intro heq
    rw [heq] at h
    exact hdashes h
  have hspelled : ∀ start : String, start.toList <+: argument.toList →
      (splitEquals argument.toList).1 <+: start.toList → spelled? forms start = none := by
    intro start hbegins hstart
    rw [← Option.not_isSome_iff_eq_none]
    exact fun hsome => abbreviations_ne_nil hforms hsome hbegins hstart h
  have hwhole := hspelled argument (List.prefix_refl _) (isPrefix_splitEquals _)
  have hstart := hspelled (String.ofList (splitEquals argument.toList).1)
    (by simp [isPrefix_splitEquals])
    (by simp)
  rw [shapeOf, if_neg hseparator, if_neg (not_not.mpr hhead), hwhole]
  dsimp only
  rw [if_neg (length_ne_one hhead hdash), hstart, h]
  cases (splitEquals argument.toList).2 with
  | _ =>
      dsimp only
      by_cases hplain : (isNegativeNumber argument.toList || argument.toList.contains ' ') = true
      · rw [if_pos hplain]
        simpa [isArgument] using hplain
      · rw [if_neg hplain]
        simpa [isArgument] using hplain

/-- What may be the value of an option: a text that does not begin with a dash, the dash alone, and
otherwise a negative number or a text with a space, if it may not mean an option. -/
theorem isArgument_shapeOf_iff (hforms : Regular forms)
    (hdashes : abbreviations forms ['-', '-'] ≠ []) (argument : String) :
    isArgument (argument, shapeOf forms argument) = true ↔
      argument.toList.head? ≠ some '-' ∨ argument = "-" ∨
        (abbreviations forms argument.toList = [] ∧
          (isNegativeNumber argument.toList = true ∨ ' ' ∈ argument.toList)) := by
  by_cases hhead : argument.toList.head? = some '-'
  · by_cases hdash : argument = "-"
    · rw [hdash, shapeOf_dash hforms]
      exact ⟨fun _ => .inr (.inl rfl), fun _ => rfl⟩
    · rw [or_iff_right (not_not.mpr hhead), or_iff_right hdash]
      by_cases h : abbreviations forms argument.toList = []
      · rw [isArgument_of_abbreviations_eq_nil hforms hdashes hhead hdash h, and_iff_right h]
      · rw [isArgument_of_abbreviations_ne_nil hhead hdash h]
        simp [h]
  · rw [shapeOf_of_head? hhead]
    exact ⟨fun _ => .inl hhead, fun _ => rfl⟩

/-! ## Options and operands in turn -/

theorem walk_nil : walk forms ([] : List (ω × OperandForm)) [] = [] := by
  rw [walk]
  rfl

/-- An option that takes a value takes the argument behind it. -/
theorem walk_value {operands : List (ω × OperandForm)} {form : OptionForm κ}
    {text spelling : String} {item : Shaped κ} {rest : List (Shaped κ)}
    (hform : form.takesValue = true) :
    walk forms operands ((text, .option ⟨some form, spelling, false, none⟩) :: item :: rest) =
      if isArgument item then .option form.key (some item.1) :: walk forms operands rest
      else .misuse :: walk forms operands (item :: rest) := by
  rw [walk, if_neg (by simp [isOption])]
  simp only [takeOption, hform, List.head?_cons, if_true]
  by_cases hitem : isArgument item = true
  · simp [hitem]
  · simp [hitem]

/-- An operand that takes all that follows takes all arguments, if the first is no option. -/
theorem walk_remainder (key : ω) {item : Shaped κ} (rest : List (Shaped κ))
    (hitem : isArgument item = true) : walk forms [(key, .remainder)] (item :: rest) =
      [.operand key ((item :: rest).map Prod.fst)] := by
  obtain ⟨text, shape⟩ := item
  cases shape with
  | argument =>
      have htake : takeOperands (κ := κ) [(key, OperandForm.remainder)]
          ((text, .argument) :: rest) = ([.operand key (text :: rest.map Prod.fst)], [], []) := by
        simp [takeOperands, OperandForm.take?, OperandForm.values, isSeparator, isArgument]
      rw [walk, htake]
      · split
        · rfl
        · dsimp only
          rw [if_pos (by simp), walk_nil]
          rfl
      · intro first candidate heq
        cases heq
  | _ => cases hitem

/-! ## What a command line says -/

/-- Whether an argument may mean several options. -/
def isAmbiguous (item : Shaped κ) : Bool :=
  match item.2 with
  | .ambiguous => true
  | _ => false

theorem isAmbiguous_iff {item : Shaped κ} : isAmbiguous item = true ↔ item.2 = .ambiguous := by
  obtain ⟨text, shape⟩ := item
  cases shape <;> simp [isAmbiguous]

theorem isAmbiguous_of_isArgument {item : Shaped κ} (h : isArgument item = true) :
    isAmbiguous item = false := by
  obtain ⟨text, shape⟩ := item
  cases shape with
  | argument => rfl
  | _ => cases h

theorem events_eq (operands : List (ω × OperandForm)) (arguments : List String) :
    events forms operands arguments =
      if (shapes forms arguments).any isAmbiguous then [.misuse]
      else walk forms operands (shapes forms arguments) := rfl

section

variable {spelling value : String} {form : OptionForm κ}

theorem any_isAmbiguous_value (h : spelled? forms spelling = some form)
    (hhead : spelling.toList.head? = some '-') (hne : spelling ≠ "--")
    (hvalue : value.toList.head? ≠ some '-') (rest : List String) :
    (shapes forms (spelling :: value :: rest)).any isAmbiguous =
      (shapes forms rest).any isAmbiguous := by
  rw [shapes_cons hne, shapes_cons_of_head? hvalue, shapeOf_of_spelled? h hhead hne]
  rfl

theorem any_isAmbiguous_last (h : spelled? forms spelling = some form)
    (hhead : spelling.toList.head? = some '-') (hne : spelling ≠ "--") :
    (shapes forms [spelling, value]).any isAmbiguous =
      isAmbiguous (value, shapeOf forms value) := by
  rw [shapes_cons hne, shapes_singleton, shapeOf_of_spelled? h hhead hne]
  simp [isAmbiguous]

theorem walk_shapes_value {operands : List (ω × OperandForm)}
    (h : spelled? forms spelling = some form) (hform : form.takesValue = true)
    (hhead : spelling.toList.head? = some '-') (hne : spelling ≠ "--")
    (hvalue : value.toList.head? ≠ some '-') (rest : List String) :
    walk forms operands (shapes forms (spelling :: value :: rest)) =
      .option form.key (some value) :: walk forms operands (shapes forms rest) := by
  rw [shapes_cons hne, shapes_cons_of_head? hvalue, shapeOf_of_spelled? h hhead hne,
    walk_value hform]
  rfl

/-- The last argument is the value of the option in front of it, or is taken for an option. -/
theorem walk_shapes_last (h : spelled? forms spelling = some form) (hform : form.takesValue = true)
    (hhead : spelling.toList.head? = some '-') (hne : spelling ≠ "--") :
    walk forms ([] : List (ω × OperandForm)) (shapes forms [spelling, value]) =
      if isArgument (value, shapeOf forms value) then [.option form.key (some value)]
      else .misuse :: walk forms [] [(value, shapeOf forms value)] := by
  rw [shapes_cons hne, shapes_singleton, shapeOf_of_spelled? h hhead hne, walk_value hform,
    walk_nil]

end

/-- All arguments from a first operand on, if that takes all of them. -/
theorem events_remainder (key : ω) {argument : String} (h : argument.toList.head? ≠ some '-')
    (rest : List String) : events forms [(key, .remainder)] (argument :: rest) =
      if (shapes forms rest).any isAmbiguous then [.misuse]
      else [.operand key (argument :: rest)] := by
  rw [events_eq, shapes_cons_of_head? h, List.any_cons, walk_remainder key _ rfl, List.map_cons,
    map_fst_shapes]
  rfl

end ShellPrompt.CommandLine
