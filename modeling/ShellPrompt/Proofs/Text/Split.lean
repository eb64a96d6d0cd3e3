import ShellPrompt.Text.Split

/-! # Pieces of texts put together

Texts that are joined by a separator which none of them contains are the fields of the joined
text. Texts that hold no line boundary are the lines of what they make up together. -/

namespace ShellPrompt.Text

/-! ## Fields -/

section

variable {separator : Char}

theorem fieldRuns_eq_singleton {text : List Char} (h : separator ∉ text) :
    fieldRuns separator text = [text] := by
  induction text with
  | nil => rfl
  | cons c rest ih =>
      simp only [List.mem_cons, not_or] at h
      rw [fieldRuns, if_neg (Ne.symm h.1), ih h.2]
      rfl

theorem fieldRuns_append {text : List Char} (rest : List Char) (h : separator ∉ text) :
    fieldRuns separator (text ++ separator :: rest) = text :: fieldRuns separator rest := by
  induction text with
  | nil => simp [fieldRuns]
  | cons c text ih =>
      simp only [List.mem_cons, not_or] at h
      rw [List.cons_append, fieldRuns, if_neg (Ne.symm h.1), ih h.2]
      rfl

theorem fields_eq_singleton {text : String} (h : separator ∉ text.toList) :
    fields separator text = [text] := by
  rw [fields, fieldRuns_eq_singleton h, List.map_singleton, String.ofList_toList]

/-- Joined texts are found again between the separators. -/
theorem fields_join {texts : List String} (hne : texts ≠ [])
    (h : ∀ text ∈ texts, separator ∉ text.toList) :
    fields separator (join (String.singleton separator) texts) = texts := by
  induction texts with
  | nil => exact absurd rfl hne
  | cons text rest ih =>
      cases rest with
      | nil => exact fields_eq_singleton (h text (by simp))
      | cons next rest =>
          have hrest := ih (by simp) fun later hlater => h later (List.mem_cons_of_mem _ hlater)
          rw [fields] at hrest ⊢
          have hlist : (join (String.singleton separator) (text :: next :: rest)).toList =
              text.toList ++
                separator :: (join (String.singleton separator) (next :: rest)).toList := by
            simp [join]
          rw [hlist, fieldRuns_append _ (h text (by simp)), List.map_cons, hrest,
            String.ofList_toList]

/-- Texts without the separator are told from others by what they make up together. -/
theorem join_inj {first second : List String} (hfirst : first ≠ []) (hsecond : second ≠ [])
    (hfirstFree : ∀ text ∈ first, separator ∉ text.toList)
    (hsecondFree : ∀ text ∈ second, separator ∉ text.toList) :
    join (String.singleton separator) first = join (String.singleton separator) second ↔
      first = second := by
  constructor
  · intro h
    rw [← fields_join hfirst hfirstFree, h, fields_join hsecond hsecondFree]
  · exact congrArg _

end

/-! ## Joined texts -/

section

variable {separator : String}

theorem join_cons {rest : List String} (text : String) (h : rest ≠ []) :
    join separator (text :: rest) = text ++ separator ++ join separator rest := by
  cases rest with
  | nil => exact absurd rfl h
  | cons next rest => rfl

theorem join_append {first second : List String} (hfirst : first ≠ []) (hsecond : second ≠ []) :
    join separator (first ++ second) =
      join separator first ++ separator ++ join separator second := by
  induction first with
  | nil => exact absurd rfl hfirst
  | cons text rest ih =>
      by_cases hrest : rest = []
      · subst hrest
        exact join_cons text hsecond
      · rw [List.cons_append, join_cons text (by simp [hrest]), ih hrest, join_cons text hrest]
        simp only [String.append_assoc]

/-- Texts may be joined group by group. -/
theorem join_map_join {groups : List (List String)} (h : ∀ group ∈ groups, group ≠ []) :
    join separator (groups.map (join separator)) = join separator groups.flatten := by
  induction groups with
  | nil => rfl
  | cons group rest ih =>
      obtain ⟨hgroup, hrest⟩ := List.forall_mem_cons.mp h
      cases rest with
      | nil => simp [join]
      | cons next rest =>
          have hnext : (next :: rest).flatten ≠ [] := by
            simp [hrest next List.mem_cons_self]
          rw [List.flatten_cons, join_append hgroup hnext, ← ih hrest, List.map_cons,
            join_cons _ (by simp)]

end

/-! ## Lines -/

section

variable {line : List Char} {lines : List (List Char)}

/-- A text without line boundaries. -/
def IsUnbroken (line : List Char) : Prop := ∀ c ∈ line, isLineEnd c = false

instance (line : List Char) : Decidable (IsUnbroken line) :=
  decidable_of_iff (line.all fun c => !isLineEnd c) (by simp [IsUnbroken])

theorem lineRuns_cons {c : Char} (rest : List Char) (h : isLineEnd c = false) :
    lineRuns (c :: rest) = consHead c (lineRuns rest) := by
  have hreturn : c ≠ '\r' := by
    rintro rfl
    revert h
    decide
  rw [lineRuns, if_neg (by simp [h])]
  exact fun tail heq _ => hreturn heq

theorem lineRuns_append (rest : List Char) (h : IsUnbroken line) :
    lineRuns (line ++ '\n' :: rest) = line :: lineRuns rest := by
  induction line with
  | nil => simp [lineRuns, isLineEnd, CodeRanges.has]
  | cons c line ih =>
      obtain ⟨hc, hline⟩ := List.forall_mem_cons.mp h
      rw [List.cons_append, lineRuns_cons _ hc, ih hline]
      rfl

theorem lineRuns_eq_singleton (hne : line ≠ []) (h : IsUnbroken line) : lineRuns line = [line] := by
  induction line with
  | nil => exact absurd rfl hne
  | cons c line ih =>
      obtain ⟨hc, hline⟩ := List.forall_mem_cons.mp h
      rw [lineRuns_cons _ hc]
      by_cases hlast : line = []
      · subst hlast
        rfl
      · rw [ih hlast hline]
        rfl

/-- Lines that are ended each are found again. -/
theorem lineRuns_flatMap (h : ∀ line ∈ lines, IsUnbroken line) :
    lineRuns (lines.flatMap fun line => line ++ ['\n']) = lines := by
  induction lines with
  | nil => rfl
  | cons line rest ih =>
      obtain ⟨hline, hrest⟩ := List.forall_mem_cons.mp h
      rw [List.flatMap_cons, List.append_assoc, List.singleton_append, lineRuns_append _ hline,
        ih hrest]

/-- The end of the last line may be missing. -/
theorem lineRuns_join (hne : ∀ line ∈ lines, line ≠ []) (h : ∀ line ∈ lines, IsUnbroken line) :
    lineRuns (join "\n" (lines.map String.ofList)).toList = lines := by
  induction lines with
  | nil => rfl
  | cons line rest ih =>
      obtain ⟨hline, hrest⟩ := List.forall_mem_cons.mp h
      obtain ⟨hlineNe, hrestNe⟩ := List.forall_mem_cons.mp hne
      cases rest with
      | nil => simpa [join] using lineRuns_eq_singleton hlineNe hline
      | cons next rest =>
          have hlist : (join "\n" ((line :: next :: rest).map String.ofList)).toList =
              line ++ '\n' :: (join "\n" ((next :: rest).map String.ofList)).toList := by
            simp [join]
          rw [hlist, lineRuns_append _ hline, ih hrestNe hrest]

end

end ShellPrompt.Text
