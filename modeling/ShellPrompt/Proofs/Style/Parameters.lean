import ShellPrompt.Proofs.Number.Decimal
import ShellPrompt.Proofs.Text.Split
import ShellPrompt.Style.Rendition

/-! # What an escape sequence sets

The parameters of an escape sequence are read as what they set: attributes and palette colors. The
sequence that is written for some settings is read back as these settings. -/

namespace ShellPrompt

/-- What parameters set: an attribute, or the color of a ground by its palette index. -/
inductive Setting where
  | switch (attr : Attribute)
  | color (ground : Ground) (index : Nat)
deriving DecidableEq, Repr

namespace Setting

/-! ## Reading -/

/-- The attribute that a parameter switches on. -/
def attributeOf? : Nat → Option Attribute
  | 1 => some .bold
  | 2 => some .dim
  | 3 => some .italic
  | 4 => some .underline
  | 5 => some .blink
  | 7 => some .reverse
  | 8 => some .hidden
  | 9 => some .strikethrough
  | _ => none

/-- What a parameter sets by itself. -/
def ofCode? (code : Nat) : Option Setting :=
  if 30 ≤ code ∧ code ≤ 37 then some (.color .foreground (code - 30))
  else if 90 ≤ code ∧ code ≤ 97 then some (.color .foreground (code - 90 + 8))
  else if 40 ≤ code ∧ code ≤ 47 then some (.color .background (code - 40))
  else if 100 ≤ code ∧ code ≤ 107 then some (.color .background (code - 100 + 8))
  else (attributeOf? code).map .switch

/-- What parameters set in their order. Behind 38 and 48 stand a 5 and a palette index. -/
def ofCodes? : List Nat → Option (List Setting)
  | [] => some []
  | 38 :: 5 :: index :: rest => (ofCodes? rest).map (.color .foreground index :: ·)
  | 48 :: 5 :: index :: rest => (ofCodes? rest).map (.color .background index :: ·)
  | code :: rest => (ofCode? code).bind fun setting => (ofCodes? rest).map (setting :: ·)

/-- The number that a text of digits stands for. -/
def number? (text : String) : Option Nat :=
  if text ≠ "" ∧ text.toList.all Char.isDigit then some (Nat.ofDigitChars 10 text.toList 0)
  else none

/-- What an escape sequence sets. An empty text sets nothing. -/
def ofSequence? (sequence : String) : Option (List Setting) :=
  match sequence.toList with
  | [] => some []
  | '\x1b' :: '[' :: rest =>
    if rest.getLast? = some 'm' then
      ((Text.fields ';' (String.ofList rest.dropLast)).mapM number?).bind ofCodes?
    else none
  | _ => none

/-! ## Writing -/

/-- The parameters for a setting. -/
def codes : Setting → List Nat
  | switch attr => [attr.code]
  | color ground index =>
    if index ≤ 7 then [ground.plainBase + index]
    else if index ≤ 15 then [ground.brightBase + (index - 8)]
    else [ground.paletteMark, 5, index]

/-- The text of the parameters for a setting. -/
def text (setting : Setting) : String := Text.join ";" (setting.codes.map toString)

section

variable {ground : Ground} {index : Nat}

theorem codes_plain (h : index ≤ 7) : (color ground index).codes = [ground.plainBase + index] :=
  if_pos h

theorem codes_bright (hplain : ¬ index ≤ 7) (h : index ≤ 15) :
    (color ground index).codes = [ground.brightBase + (index - 8)] :=
  (if_neg hplain).trans (if_pos h)

theorem codes_indexed (hplain : ¬ index ≤ 7) (hbright : ¬ index ≤ 15) :
    (color ground index).codes = [ground.paletteMark, 5, index] :=
  (if_neg hplain).trans (if_neg hbright)

theorem codes_ne_nil (setting : Setting) : setting.codes ≠ [] := by
  cases setting with
  | switch attr => simp [codes]
  | color ground index =>
      by_cases hplain : index ≤ 7
      · simp [codes_plain hplain]
      · by_cases hbright : index ≤ 15
        · simp [codes_bright hplain hbright]
        · simp [codes_indexed hplain hbright]

/-- The parameters of a palette color are what its setting is written as. -/
theorem indexParameter_eq (h : index ≤ paletteMax) :
    indexParameter ground index = some (color ground index).text := by
  unfold indexParameter text
  by_cases hplain : index ≤ 7
  · rw [if_pos ⟨by omega, by omega⟩, codes_plain hplain]
    rfl
  · rw [if_neg fun hindex => hplain (by omega)]
    by_cases hbright : index ≤ 15
    · rw [if_pos ⟨by omega, by omega⟩, codes_bright hplain hbright]
      rfl
    · rw [if_neg fun hindex => hbright (by omega), if_pos ⟨by omega, Int.ofNat_le.mpr h⟩,
        codes_indexed hplain hbright]
      have hmiddle : ";5;" = ";" ++ toString 5 ++ ";" := rfl
      simp only [hmiddle, List.map_cons, List.map_nil, Text.join, String.append_assoc,
        Int.toNat_natCast]

end

theorem ofCodes?_of_ofCode? {code : Nat} {setting : Setting} (rest : List Nat)
    (h : ofCode? code = some setting) :
    ofCodes? (code :: rest) = (ofCodes? rest).map (setting :: ·) := by
  have hforeground : code ≠ 38 := by
    rintro rfl
    cases h
  have hbackground : code ≠ 48 := by
    rintro rfl
    cases h
  rw [ofCodes?, h]
  · rfl
  · intro index tail hcode
    exact absurd hcode hforeground
  · intro index tail hcode
    exact absurd hcode hbackground

theorem ofCode?_plain (ground : Ground) :
    ∀ index ≤ 7, ofCode? (ground.plainBase + index) = some (color ground index) := by
  cases ground <;> decide

theorem ofCode?_bright (ground : Ground) :
    ∀ index ≤ 15, ¬ index ≤ 7 →
      ofCode? (ground.brightBase + (index - 8)) = some (color ground index) := by
  cases ground <;> decide

/-- The parameters for a setting are read as this setting. -/
theorem ofCodes?_append (setting : Setting) (rest : List Nat) :
    ofCodes? (setting.codes ++ rest) = (ofCodes? rest).map (setting :: ·) := by
  cases setting with
  | switch attr => exact ofCodes?_of_ofCode? rest (by cases attr <;> rfl)
  | color ground index =>
      by_cases hplain : index ≤ 7
      · rw [codes_plain hplain]
        exact ofCodes?_of_ofCode? rest (ofCode?_plain ground index hplain)
      · by_cases hbright : index ≤ 15
        · rw [codes_bright hplain hbright]
          exact ofCodes?_of_ofCode? rest (ofCode?_bright ground index hbright hplain)
        · rw [codes_indexed hplain hbright]
          cases ground <;> rfl

theorem ofCodes?_flatMap (settings : List Setting) :
    ofCodes? (settings.flatMap codes) = some settings := by
  induction settings with
  | nil => rfl
  | cons setting rest ih => rw [List.flatMap_cons, ofCodes?_append, ih, Option.map_some]

/-! ## Sequences -/

theorem number?_toString (n : Nat) : number? (toString n) = some n := by
  have htext : (toString n).toList = Nat.toDigits 10 n := Nat.toList_repr ..
  have hne : toString n ≠ "" := by
    rw [ne_eq, ← String.toList_eq_nil_iff, htext]
    exact Nat.toDigits_ne_nil
  have hdigits : (toString n).toList.all Char.isDigit = true := by
    rw [htext, List.all_eq_true]
    exact fun c hc => Nat.isDigit_of_mem_toDigits (by decide) (by decide) hc
  rw [number?, if_pos ⟨hne, hdigits⟩, htext, Nat.ofDigitChars_ten_toDigits]

theorem separator_notMem_toString (n : Nat) : ';' ∉ (toString n).toList := by
  intro hmem
  have htext : (toString n).toList = Nat.toDigits 10 n := Nat.toList_repr ..
  rw [htext] at hmem
  cases Nat.isDigit_of_mem_toDigits (by decide) (by decide) hmem

theorem mapM_number?_toString (codes : List Nat) :
    (codes.map toString).mapM number? = some codes := by
  induction codes with
  | nil => rfl
  | cons code rest ih =>
      rw [List.map_cons, List.mapM_cons, number?_toString, ih]
      rfl

/-- The texts of settings joined are the texts of all their parameters joined. -/
theorem join_texts (settings : List Setting) :
    Text.join ";" (settings.map text) = Text.join ";" ((settings.flatMap codes).map toString) := by
  have hgroups : ∀ group ∈ settings.map fun setting => setting.codes.map toString, group ≠ [] :=
    List.forall_mem_map.mpr fun setting _ => by simpa using setting.codes_ne_nil
  rw [List.map_flatMap, List.flatMap_def, ← Text.join_map_join hgroups, List.map_map]
  rfl

theorem sequenceOf_eq_empty_iff {parameters : List String} :
    Rendition.sequenceOf parameters = "" ↔ parameters = [] := by
  cases parameters with
  | nil => simp [Rendition.sequenceOf]
  | cons parameter rest => simp [Rendition.sequenceOf, ← String.toList_inj]

/-- The settings that a sequence is written for are read from it. -/
theorem ofSequence?_sequenceOf (settings : List Setting) :
    ofSequence? (Rendition.sequenceOf (settings.map text)) = some settings := by
  cases settings with
  | nil => rfl
  | cons setting rest =>
      have hcodes : (setting :: rest).flatMap codes ≠ [] := by
        simp [codes_ne_nil]
      have hfields : Text.fields ';' (Text.join ";" ((setting :: rest).map text)) =
          ((setting :: rest).flatMap codes).map toString := by
        rw [join_texts]
        refine Text.fields_join (by simpa using hcodes) ?_
        exact List.forall_mem_map.mpr fun code _ => separator_notMem_toString code
      have hlist : (Rendition.sequenceOf ((setting :: rest).map text)).toList =
          '\x1b' :: '[' :: ((Text.join ";" ((setting :: rest).map text)).toList ++ ['m']) := by
        simp [Rendition.sequenceOf]
      rw [ofSequence?, hlist]
      simp only [List.getLast?_concat, if_true, List.dropLast_concat, String.ofList_toList, hfields,
        mapM_number?_toString, Option.bind_some, ofCodes?_flatMap]

theorem text_injective {first second : Setting} (h : first.text = second.text) :
    first = second := by
  have hsequence : ofSequence? (Rendition.sequenceOf ([first].map text)) =
      ofSequence? (Rendition.sequenceOf ([second].map text)) := by
    rw [List.map_singleton, h, List.map_singleton]
  rw [ofSequence?_sequenceOf, ofSequence?_sequenceOf] at hsequence
  simpa using hsequence

end Setting

end ShellPrompt
