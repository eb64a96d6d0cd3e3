import ShellPrompt.Style.Table

/-! # The characters of escape sequences

An escape sequence is made of digits and four other characters, whatever the renditions in a table
say. -/

namespace ShellPrompt

/-- The characters of escape sequences. -/
def isCodeChar (c : Char) : Bool := c.isDigit || ['\x1b', '[', ';', 'm'].contains c

/-- A text of characters of escape sequences. -/
def IsCode (text : String) : Prop := ∀ c ∈ text.toList, isCodeChar c = true

theorem isCode_of_all {text : String} (h : text.toList.all isCodeChar = true) : IsCode text :=
  List.all_eq_true.mp h

theorem isCode_append {first second : String} (h₁ : IsCode first) (h₂ : IsCode second) :
    IsCode (first ++ second) := by
  intro c hc
  rw [String.toList_append, List.mem_append] at hc
  exact hc.elim (h₁ c) (h₂ c)

theorem isCode_toString (n : Nat) : IsCode (toString n) := by
  intro c hc
  have hc : c ∈ Nat.toDigits 10 n := by
    rw [← Nat.toList_repr]
    exact hc
  have hdigit := Nat.isDigit_of_mem_toDigits (by decide) (by decide) hc
  rw [isCodeChar, hdigit, Bool.true_or]

theorem isCode_join {texts : List String} (h : ∀ text ∈ texts, IsCode text) :
    IsCode (Text.join ";" texts) := by
  induction texts with
  | nil => simp [Text.join, IsCode]
  | cons text rest ih =>
      obtain ⟨htext, hrest⟩ := List.forall_mem_cons.mp h
      cases rest with
      | nil => exact htext
      | cons next rest =>
          have hseparator : IsCode ";" := isCode_of_all (by decide)
          exact isCode_append (isCode_append htext hseparator) (ih hrest)

theorem isCode_indexParameter {ground : Ground} {n : Int} {text : String}
    (h : indexParameter ground n = some text) : IsCode text := by
  unfold indexParameter at h
  split at h
  · obtain rfl := Option.some.inj h
    exact isCode_toString _
  · split at h
    · obtain rfl := Option.some.inj h
      exact isCode_toString _
    · split at h
      · obtain rfl := Option.some.inj h
        have hmiddle : IsCode ";5;" := isCode_of_all (by decide)
        exact isCode_append (isCode_append (isCode_toString _) hmiddle) (isCode_toString _)
      · cases h

theorem isCode_parameter {ground : Ground} {color : ColorRef} {text : String}
    (h : color.parameter ground = .ok (some text)) : IsCode text := by
  cases color with
  | index n => exact isCode_indexParameter (Except.ok.inj h)
  | named name =>
      unfold ColorRef.parameter at h
      dsimp only at h
      split at h
      · exact isCode_indexParameter (Except.ok.inj h)
      · split at h
        · cases hread : Numeral.read 10 (Text.toLower name) with
          | error error =>
              rw [hread] at h
              cases h
          | ok n =>
              rw [hread] at h
              exact isCode_indexParameter (Except.ok.inj h)
        · cases h

namespace Rendition

theorem isCode_colorParameter {ground : Ground} {color : Option ColorRef} {text : String}
    (h : colorParameter ground color = .ok (some text)) : IsCode text := by
  cases color with
  | none => cases h
  | some color => exact isCode_parameter h

theorem isCode_parameters {look : Rendition} {texts : List String}
    (h : look.parameters = .ok texts) : ∀ text ∈ texts, IsCode text := by
  unfold parameters at h
  cases hforeground : colorParameter .foreground look.foreground with
  | error error => simp [hforeground, bind, Except.bind] at h
  | ok foreground =>
      cases hbackground : colorParameter .background look.background with
      | error error => simp [hforeground, hbackground, bind, Except.bind] at h
      | ok background =>
          simp only [hforeground, hbackground, bind, Except.bind, pure, Except.pure,
            Except.ok.injEq] at h
          subst h
          intro text htext
          rw [List.mem_append, List.mem_append] at htext
          rcases htext with (htext | htext) | htext
          · obtain ⟨attr, _, rfl⟩ := List.mem_map.mp htext
            exact isCode_toString _
          · rw [Option.mem_toList] at htext
            exact isCode_colorParameter (hforeground.trans (congrArg _ htext))
          · rw [Option.mem_toList] at htext
            exact isCode_colorParameter (hbackground.trans (congrArg _ htext))

theorem isCode_sequenceOf {parameters : List String} (h : ∀ text ∈ parameters, IsCode text) :
    IsCode (sequenceOf parameters) := by
  cases parameters with
  | nil => simp [sequenceOf, IsCode]
  | cons parameter rest =>
      have hbegin : IsCode "\x1b[" := isCode_of_all (by decide)
      have hend : IsCode "m" := isCode_of_all (by decide)
      exact isCode_append (isCode_append hbegin (isCode_join h)) hend

theorem isCode_sequence {look : Rendition} {code : String} (h : look.sequence = .ok code) :
    IsCode code := by
  unfold sequence at h
  cases hparameters : look.parameters with
  | error error =>
      rw [hparameters] at h
      cases h
  | ok parameters =>
      rw [hparameters] at h
      obtain rfl := Except.ok.inj h
      exact isCode_sequenceOf (isCode_parameters hparameters)

end Rendition

/-- The escape sequence of a keyword has the characters of escape sequences only. -/
theorem StyleTable.isCode_sequence {table : StyleTable} {name code : String}
    (h : table.sequence name = .ok code) : IsCode code := by
  unfold sequence at h
  split at h
  · obtain rfl := Except.ok.inj h
    exact isCode_of_all (by decide)
  · split at h
    · rename_i look _
      cases hsequence : look.sequence with
      | error error =>
          rw [hsequence] at h
          cases h
      | ok text =>
          rw [hsequence] at h
          obtain rfl := Except.ok.inj h
          exact Rendition.isCode_sequence hsequence
    · cases h

end ShellPrompt
