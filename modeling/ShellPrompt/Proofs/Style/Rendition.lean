import ShellPrompt.Style.Rendition

/-! # Renditions that can be shown

A color is checked when a description is read, so the rendition that the description stands for
always has an escape sequence. -/

namespace ShellPrompt

/-- A color whose parameter is defined in front and behind. -/
def ColorRef.Readable (color : ColorRef) : Prop :=
  ∀ ground, ∃ parameter, color.parameter ground = .ok parameter

/-! ## Names of colors -/

namespace Text

theorem lowerChar_of_isDigit {c : Char} (h : c.isDigit = true) : lowerChar c = c := by
  have hnone : ∀ n < 58, caseRuns.find? (·.has n) = none := by decide +kernel
  have hlt : c.toNat < 58 := by
    simp only [Char.isDigit, Bool.and_eq_true, decide_eq_true_eq, UInt32.le_iff_toNat_le] at h
    exact Nat.lt_succ_of_le h.2
  rw [lowerChar, hnone c.toNat hlt]

theorem lowerAfter_of_isDigit {before text : List Char} (h : ∀ c ∈ text, c.isDigit = true) :
    lowerAfter before text = text := by
  induction text generalizing before with
  | nil => rfl
  | cons c rest ih =>
      obtain ⟨hc, hrest⟩ := List.forall_mem_cons.mp h
      have hsigma : c ≠ 'Σ' := by
        rintro rfl
        revert hc
        decide
      have hdotted : c ≠ 'İ' := by
        rintro rfl
        revert hc
        decide
      rw [lowerAfter, if_neg hsigma, if_neg hdotted, lowerChar_of_isDigit hc, ih hrest]
      rfl

/-- Digits have no case. -/
theorem toLower_of_isDigit {text : String} (h : ∀ c ∈ text.toList, c.isDigit = true) :
    toLower text = text := by
  rw [toLower, lowerAfter_of_isDigit h, String.ofList_toList]

end Text

theorem BaseColor.toLower_name (color : BaseColor) : Text.toLower color.name = color.name := by
  cases color <;> decide +kernel

theorem BaseColor.toLower_brightName (color : BaseColor) :
    Text.toLower color.brightName = color.brightName := by
  cases color <;> decide +kernel

/-- The names of colors are in lower case. -/
theorem toLower_of_paletteIndex? {name : String} (h : (paletteIndex? name).isSome = true) :
    Text.toLower name = name := by
  unfold paletteIndex? at h
  split at h
  · rename_i color hcolor
    obtain rfl : color.name = name := by simpa using List.find?_some hcolor
    exact color.toLower_name
  · split at h
    · rename_i hgray
      rcases hgray with rfl | rfl <;> decide +kernel
    · rw [Option.isSome_map] at h
      obtain ⟨color, hcolor⟩ := Option.isSome_iff_exists.mp h
      obtain rfl : color.brightName = name := by simpa using List.find?_some hcolor
      exact color.toLower_brightName

namespace ColorRef

theorem readable_of_paletteIndex? {name : String} (h : (paletteIndex? name).isSome = true) :
    (named name).Readable := by
  intro ground
  obtain ⟨n, hn⟩ := Option.isSome_iff_exists.mp h
  refine ⟨indexParameter ground n, ?_⟩
  rw [parameter, toLower_of_paletteIndex? h, hn]

/-- A text of digits is read when the color is shown as it was read when it was checked. -/
theorem readable_of_isIndexWord {name : String} {n : Int}
    (hdigits : Rendition.isIndexWord name = true) (hread : Numeral.read 10 name = .ok n) :
    (named name).Readable := by
  have hall : ∀ c ∈ name.toList, c.isDigit = true := by
    simp only [Rendition.isIndexWord, decide_eq_true_eq] at hdigits
    exact List.all_eq_true.mp hdigits.2
  intro ground
  rw [parameter, Text.toLower_of_isDigit hall]
  split
  · exact ⟨_, rfl⟩
  · split
    · exact ⟨indexParameter ground n, by rw [hread]; rfl⟩
    · exact ⟨none, rfl⟩

theorem readable_of_colorName {spec name : String} {color : ColorRef}
    (h : Rendition.colorName spec name = .ok color) : color.Readable := by
  unfold Rendition.colorName at h
  split at h
  · rename_i hname
    obtain rfl := Except.ok.inj h
    exact readable_of_paletteIndex? hname
  · split at h
    · rename_i hdigits
      split at h
      · rename_i n hread
        split at h
        · obtain rfl := Except.ok.inj h
          exact readable_of_isIndexWord hdigits hread
        · cases h
      · cases h
    · cases h

theorem readable_name (color : BaseColor) : (named color.name).Readable :=
  readable_of_paletteIndex? (by cases color <;> decide)

theorem readable_brightName (color : BaseColor) : (named color.brightName).Readable :=
  readable_of_paletteIndex? (by cases color <;> decide)

end ColorRef

/-! ## Renditions -/

namespace Rendition

/-- A rendition whose colors have parameters. -/
structure Readable (look : Rendition) : Prop where
  foreground : ∀ color ∈ look.foreground, color.Readable
  background : ∀ color ∈ look.background, color.Readable

theorem exists_colorParameter {color : Option ColorRef} (h : ∀ c ∈ color, c.Readable)
    (ground : Ground) : ∃ parameter, colorParameter ground color = .ok parameter := by
  cases color with
  | none => exact ⟨none, rfl⟩
  | some color => exact h color rfl ground

theorem Readable.exists_sequence {look : Rendition} (h : look.Readable) :
    ∃ code, look.sequence = .ok code := by
  obtain ⟨foreground, hforeground⟩ := exists_colorParameter h.foreground .foreground
  obtain ⟨background, hbackground⟩ := exists_colorParameter h.background .background
  rw [sequence, parameters, hforeground, hbackground]
  exact ⟨_, rfl⟩

theorem readable_empty : Readable {} := ⟨by simp, by simp⟩

theorem Readable.withForeground {look : Rendition} {color : ColorRef} (h : look.Readable)
    (hcolor : color.Readable) : Readable { look with foreground := some color } :=
  ⟨fun _ hc => Option.some.inj hc ▸ hcolor, h.background⟩

theorem Readable.withBackground {look : Rendition} {color : ColorRef} (h : look.Readable)
    (hcolor : color.Readable) : Readable { look with background := some color } :=
  ⟨h.foreground, fun _ hc => Option.some.inj hc ▸ hcolor⟩

theorem exists_of_bind_eq_ok {ε α β : Type} {first : Except ε α} {next : α → Except ε β} {b : β}
    (h : first >>= next = .ok b) : ∃ a, first = .ok a ∧ next a = .ok b := by
  cases first with
  | error error => cases h
  | ok a => exact ⟨a, rfl, h⟩

theorem readable_of_readWords {spec : String} {look last : Rendition} {words : List String}
    (hlook : look.Readable) (h : readWords spec look words = .ok last) : last.Readable := by
  fun_induction readWords spec look words with
  | case1 look =>
      obtain rfl := Except.ok.inj h
      exact hlook
  | case2 look word rest attr hattr ih => exact ih ⟨hlook.foreground, hlook.background⟩ h
  | case3 look word rest hattr hon ih =>
      obtain ⟨color, hcolor, hnext⟩ := exists_of_bind_eq_ok h
      exact ih color (hlook.withBackground (ColorRef.readable_of_colorName hcolor)) hnext
  | case4 look word rest hattr hon base hnone hbright ih =>
      exact ih (hlook.withForeground (ColorRef.readable_brightName base)) h
  | case5 look word rest hattr hon base color hsome hbright ih => exact ih hlook h
  | case6 look word rest hattr hon color hsome hbright ih => exact ih hlook h
  | case7 look word rest hattr hon hnone hbright ih =>
      obtain ⟨color, hcolor, hnext⟩ := exists_of_bind_eq_ok h
      exact ih color (hlook.withForeground (ColorRef.readable_of_colorName hcolor)) hnext

theorem readable_of_ofSpec {spec : String} {look : Rendition} (h : ofSpec spec = .ok look) :
    look.Readable :=
  readable_of_readWords readable_empty h

end Rendition

end ShellPrompt
