import ShellPrompt.Proofs.Number.Decimal
import ShellPrompt.Proofs.Text.Split
import ShellPrompt.Style.Rendition

/-! # The words of an accepted description

Each word of a description that is accepted is an attribute, a part of a color, or an `on` in front
of a background, up to the first color of the characters. What comes after that and is in no
background is passed over whatever it is. -/

namespace ShellPrompt

/-! ## Names of colors -/

namespace BaseColor

theorem ofName?_eq_some_iff {word : String} {color : BaseColor} :
    ofName? word = some color ↔ color.name = word := by
  constructor
  · intro h
    simpa using List.find?_some h
  · rintro rfl
    cases color <;> decide

theorem ofName?_eq_none_iff {word : String} :
    ofName? word = none ↔ ∀ color : BaseColor, color.name ≠ word := by
  rw [Option.eq_none_iff_forall_ne_some]
  exact forall_congr' fun color => not_congr ofName?_eq_some_iff

theorem mem_all (color : BaseColor) : color ∈ all := by
  cases color <;> decide

end BaseColor

/-- The names in the palette. -/
theorem isSome_paletteIndex?_iff {name : String} :
    (paletteIndex? name).isSome = true ↔
      (∃ color : BaseColor, color.name = name) ∨ (name = "gray" ∨ name = "grey") ∨
        ∃ color : BaseColor, color.brightName = name := by
  unfold paletteIndex?
  cases hbase : BaseColor.ofName? name with
  | some color => exact iff_of_true rfl (.inl ⟨color, BaseColor.ofName?_eq_some_iff.mp hbase⟩)
  | none =>
      have hnone : ¬ ∃ color : BaseColor, color.name = name := by
        simpa using BaseColor.ofName?_eq_none_iff.mp hbase
      simp only [hnone, false_or]
      by_cases hgray : name = "gray" ∨ name = "grey"
      · simp [hgray]
      · simp [hgray, BaseColor.mem_all]

namespace Rendition

/-- Whether a word is an index of the palette, written in ASCII digits and not longer than a number
may be. -/
structure IsIndex (word : String) : Prop where
  ne_empty : word.toList ≠ []
  isDigit : ∀ c ∈ word.toList, c.isDigit = true
  length_le : word.toList.length ≤ Numeral.maxDigits
  le_max : Nat.ofDigitChars 10 word.toList 0 ≤ paletteMax

/-- Words that name a color together. -/
inductive NamesColor : List String → Prop where
  | base (color : BaseColor) : NamesColor [color.name]
  | bright (color : BaseColor) : NamesColor ["bright", color.name]
  | gray : NamesColor ["gray"]
  | grey : NamesColor ["grey"]
  | index {word : String} (h : IsIndex word) : NamesColor [word]

theorem isIndexWord_iff {word : String} :
    isIndexWord word = true ↔ word.toList ≠ [] ∧ ∀ c ∈ word.toList, c.isDigit = true := by
  simp [isIndexWord]

theorem exists_colorName_iff {spec name : String} :
    (∃ color, colorName spec name = .ok color) ↔
      (paletteIndex? name).isSome = true ∨ IsIndex name := by
  unfold colorName
  by_cases hname : (paletteIndex? name).isSome = true
  · simp [hname]
  · rw [if_neg hname, or_iff_right hname]
    by_cases hindex : isIndexWord name = true
    · obtain ⟨hne, hdigits⟩ := isIndexWord_iff.mp hindex
      rw [if_pos hindex, Numeral.read_of_isDigit hne hdigits]
      by_cases hlength : name.toList.length ≤ Numeral.maxDigits
      · rw [if_pos hlength]
        by_cases hmax : Nat.ofDigitChars 10 name.toList 0 ≤ paletteMax
        · exact iff_of_true ⟨.named name, if_pos (Int.ofNat_le.mpr hmax)⟩
            ⟨hne, hdigits, hlength, hmax⟩
        · have hgreater : ¬ (Nat.ofDigitChars 10 name.toList 0 : Int) ≤ paletteMax := by omega
          apply iff_of_false _ fun h => hmax h.le_max
          simp [hgreater]
      · apply iff_of_false _ fun h => hlength h.length_le
        simp [hlength]
    · apply iff_of_false _ fun h => hindex (isIndexWord_iff.mpr ⟨h.ne_empty, h.isDigit⟩)
      simp [hindex]

/-! ## Names of several words -/

section

variable {words : List String}

/-- Words without spaces are found again in a text that they make up together. -/
theorem eq_fields_of_join {text : String} (hspace : ∀ word ∈ words, ' ' ∉ word.toList)
    (hne : text ≠ "") (h : Text.join " " words = text) : words = Text.fields ' ' text := by
  have hwords : words ≠ [] := by
    rintro rfl
    exact hne h.symm
  rw [← h]
  exact (Text.fields_join hwords hspace).symm

theorem eq_singleton_of_join {text : String} (hspace : ∀ word ∈ words, ' ' ∉ word.toList)
    (hne : text ≠ "") (hsingle : ' ' ∉ text.toList) (h : Text.join " " words = text) :
    words = [text] := by
  rw [eq_fields_of_join hspace hne h, Text.fields_eq_singleton hsingle]

theorem namesColor_iff (spec : String) (hspace : ∀ word ∈ words, ' ' ∉ word.toList) :
    (∃ color, colorName spec (Text.join " " words) = .ok color) ↔ NamesColor words := by
  rw [exists_colorName_iff, isSome_paletteIndex?_iff]
  constructor
  · rintro ((⟨color, hname⟩ | (hgray | hgrey) | ⟨color, hname⟩) | hindex)
    · rw [eq_singleton_of_join hspace (by cases color <;> decide) (by cases color <;> decide)
        hname.symm]
      exact .base color
    · rw [eq_singleton_of_join hspace (by decide) (by decide) hgray]
      exact .gray
    · rw [eq_singleton_of_join hspace (by decide) (by decide) hgrey]
      exact .grey
    · have hwords : words = Text.fields ' ' color.brightName :=
        eq_fields_of_join hspace (by cases color <;> decide) hname.symm
      have hfields : Text.fields ' ' color.brightName = ["bright", color.name] := by
        cases color <;> decide
      rw [hwords, hfields]
      exact .bright color
    · have hsingle : ' ' ∉ (Text.join " " words).toList := by
        intro hmem
        cases hindex.isDigit ' ' hmem
      rw [eq_singleton_of_join hspace (by simpa using hindex.ne_empty) hsingle rfl]
      exact .index hindex
  · intro h
    cases h with
    | base color => exact .inl (.inl ⟨color, rfl⟩)
    | bright color => exact .inl (.inr (.inr ⟨color, by cases color <;> rfl⟩))
    | gray => exact .inl (.inr (.inl (.inl rfl)))
    | grey => exact .inl (.inr (.inl (.inr rfl)))
    | index hindex => exact .inr hindex

end

/-! ## Where a word stands -/

/-- Whether words end within a background: they hold an `on`, and after it neither an attribute nor
another `on`. -/
def InBackground (before : List String) : Prop :=
  ∃ first inner, before = first ++ "on" :: inner ∧ ∀ word ∈ inner, endsBackground word = false

/-- Whether words hold one that stands for the color of the characters: one that is no attribute, no
`on` and in no background. -/
def PastForeground (before : List String) : Prop :=
  ∃ first word rest, before = first ++ word :: rest ∧ endsBackground word = false ∧
    ¬ InBackground first

section

variable {before words : List String} {word : String}

theorem not_inBackground_nil : ¬ InBackground [] := by
  simp [InBackground]

theorem not_pastForeground_nil : ¬ PastForeground [] := by
  simp [PastForeground]

theorem concat_eq_append_cons_iff {α : Type} {before first rest : List α} {last item : α} :
    before ++ [last] = first ++ item :: rest ↔
      (first = before ∧ item = last ∧ rest = []) ∨
        ∃ inner, rest = inner ++ [last] ∧ before = first ++ item :: inner := by
  rcases List.eq_nil_or_concat rest with rfl | ⟨inner, final, rfl⟩
  · rw [List.append_singleton_inj]
    constructor
    · rintro ⟨rfl, rfl⟩
      exact .inl ⟨rfl, rfl, rfl⟩
    · rintro (⟨rfl, rfl, _⟩ | ⟨inner, hinner, _⟩)
      · exact ⟨rfl, rfl⟩
      · simp at hinner
  · rw [List.concat_eq_append, ← List.cons_append, ← List.append_assoc, List.append_singleton_inj]
    constructor
    · rintro ⟨rfl, rfl⟩
      exact .inr ⟨inner, rfl, rfl⟩
    · rintro (⟨_, _, hnil⟩ | ⟨other, hother, rfl⟩)
      · simp at hnil
      · obtain ⟨rfl, rfl⟩ := List.append_singleton_inj.mp hother
        exact ⟨rfl, rfl⟩

theorem inBackground_concat :
    InBackground (before ++ [word]) ↔
      word = "on" ∨ InBackground before ∧ endsBackground word = false := by
  simp only [InBackground, concat_eq_append_cons_iff]
  constructor
  · rintro ⟨first, inner, ⟨rfl, rfl, rfl⟩ | ⟨inner, rfl, rfl⟩, hinner⟩
    · exact .inl rfl
    · exact .inr ⟨⟨first, inner, rfl, fun w hw => hinner w (by simp [hw])⟩, hinner word (by simp)⟩
  · rintro (rfl | ⟨⟨first, inner, rfl, hinner⟩, hword⟩)
    · exact ⟨before, [], .inl ⟨rfl, rfl, rfl⟩, by simp⟩
    · refine ⟨first, inner ++ [word], .inr ⟨inner, rfl, rfl⟩, fun w hw => ?_⟩
      rcases List.mem_append.mp hw with hmem | hmem
      · exact hinner w hmem
      · obtain rfl := List.mem_singleton.mp hmem
        exact hword

theorem pastForeground_concat :
    PastForeground (before ++ [word]) ↔
      PastForeground before ∨ endsBackground word = false ∧ ¬ InBackground before := by
  simp only [PastForeground, concat_eq_append_cons_iff]
  constructor
  · rintro ⟨first, other, rest, ⟨rfl, rfl, rfl⟩ | ⟨inner, rfl, rfl⟩, hother⟩
    · exact .inr hother
    · exact .inl ⟨first, other, inner, rfl, hother⟩
  · rintro (⟨first, other, rest, rfl, hother⟩ | hword)
    · exact ⟨first, other, rest ++ [word], .inr ⟨rest, rfl, rfl⟩, hother⟩
    · exact ⟨before, word, [], .inl ⟨rfl, rfl, rfl⟩, hword⟩

theorem not_inBackground_concat (hend : endsBackground word = true) (hon : word ≠ "on") :
    ¬ InBackground (before ++ [word]) := by
  simp [inBackground_concat, hend, hon]

theorem InBackground.append (h : InBackground before)
    (hwords : ∀ word ∈ words, endsBackground word = false) : InBackground (before ++ words) := by
  obtain ⟨first, inner, rfl, hinner⟩ := h
  refine ⟨first, inner ++ words, by simp, fun word hword => ?_⟩
  rcases List.mem_append.mp hword with hmem | hmem
  · exact hinner word hmem
  · exact hwords word hmem

/-- Within a background no color is given to the characters. -/
theorem pastForeground_append (h : InBackground before)
    (hwords : ∀ word ∈ words, endsBackground word = false) :
    PastForeground (before ++ words) ↔ PastForeground before := by
  induction words generalizing before with
  | nil => rw [List.append_nil]
  | cons word rest ih =>
      obtain ⟨hword, hrest⟩ := List.forall_mem_cons.mp hwords
      rw [List.append_cons, ih (inBackground_concat.mpr (.inr ⟨h, hword⟩)) hrest,
        pastForeground_concat]
      simp [h]

end

/-- What a word is known as, by the words behind it: an attribute, a part of a color, or an `on`
directly in front of a background. -/
inductive Known : String → List String → Prop where
  | attr {word : String} {after : List String} (attr : Attribute)
      (h : Attribute.ofWord? word = some attr) : Known word after
  | color {word : String} {after : List String} (h : NamesColor [word]) : Known word after
  | bright {word : String} {after rest : List String} (color : BaseColor)
      (hword : word = "bright") (hafter : after = color.name :: rest) : Known word after
  | on {word : String} {after : List String} (hword : word = "on")
      (h : NamesColor (after.takeWhile (!endsBackground ·))) : Known word after

/-- Whether a word is passed over: the color of the characters was given before, and the word is in
no background and does not begin one. -/
structure PassedOver (before : List String) (word : String) (after : List String) : Prop where
  past : PastForeground before
  outside : InBackground before → endsBackground word = true
  not_on : word = "on" → after = []

/-- Whether each of some words behind others is known or passed over. -/
def Admitted (before words : List String) : Prop :=
  ∀ first word after, words = first ++ word :: after →
    Known word after ∨ PassedOver (before ++ first) word after

section

variable {before rest : List String} {word : String}

theorem admitted_nil : Admitted before [] := by
  simp [Admitted]

theorem admitted_cons :
    Admitted before (word :: rest) ↔
      (Known word rest ∨ PassedOver before word rest) ∧ Admitted (before ++ [word]) rest := by
  constructor
  · intro h
    refine ⟨by simpa using h [] word rest rfl, fun first other after hrest => ?_⟩
    rw [← List.append_cons]
    exact h (word :: first) other after (by rw [hrest, List.cons_append])
  · rintro ⟨hword, hrest⟩ first other after happend
    cases first with
    | nil =>
        obtain ⟨rfl, rfl⟩ := List.cons.inj happend
        simpa using hword
    | cons head first =>
        obtain ⟨rfl, htail⟩ := List.cons.inj happend
        rw [List.append_cons]
        exact hrest first other after htail

theorem admitted_cons_of_known (h : Known word rest) :
    Admitted before (word :: rest) ↔ Admitted (before ++ [word]) rest := by
  rw [admitted_cons, and_iff_right (.inl h)]

/-- The words of a color are known. -/
theorem admitted_append {words : List String} (h : NamesColor words) :
    Admitted before (words ++ rest) ↔ Admitted (before ++ words) rest := by
  have hsingle : ∀ word, NamesColor [word] →
      (Admitted before ([word] ++ rest) ↔ Admitted (before ++ [word]) rest) :=
    fun word hword => admitted_cons_of_known (.color hword)
  cases h with
  | bright color =>
      rw [List.cons_append, List.singleton_append, admitted_cons_of_known (.bright color rfl rfl),
        admitted_cons_of_known (.color (.base color)), ← List.append_cons]
  | base color => exact hsingle _ (.base color)
  | gray => exact hsingle _ .gray
  | grey => exact hsingle _ .grey
  | index hindex => exact hsingle _ (.index hindex)

theorem admitted_background (h : NamesColor (rest.takeWhile (!endsBackground ·))) :
    Admitted (before ++ ["on"]) rest ↔
      Admitted (before ++ "on" :: rest.takeWhile (!endsBackground ·))
        (rest.dropWhile (!endsBackground ·)) := by
  rw [List.append_cons before "on" (rest.takeWhile _), ← admitted_append h,
    List.takeWhile_append_dropWhile]

end

/-! ## Words that mean something -/

theorem Attribute.eq_of_ofWord? {word : String} {attr : Attribute}
    (h : Attribute.ofWord? word = some attr) : word = "inverse" ∨ word = attr.name := by
  unfold Attribute.ofWord? at h
  split at h
  · next hword => exact .inl hword
  · have hname : attr.name = word := by simpa using List.find?_some h
    exact .inr hname.symm

section

variable {before rest words : List String} {word : String} {base : BaseColor}

theorem endsBackground_of_isIndex (h : IsIndex word) : endsBackground word = false := by
  by_contra hend
  simp only [endsBackground, Bool.not_eq_false, Bool.or_eq_true, decide_eq_true_eq] at hend
  have hdigit : word.toList.all Char.isDigit = true := List.all_eq_true.mpr h.isDigit
  rcases hend with hattr | rfl
  · obtain ⟨attr, hattr⟩ := Option.isSome_iff_exists.mp hattr
    rcases Attribute.eq_of_ofWord? hattr with rfl | rfl
    · revert hdigit
      decide
    · revert hdigit
      cases attr <;> decide
  · revert hdigit
    decide

/-- The words of a color end no background. -/
theorem NamesColor.endsBackground (h : NamesColor words) :
    ∀ word ∈ words, Rendition.endsBackground word = false := by
  cases h with
  | base color => cases color <;> decide
  | bright color => cases color <;> decide
  | gray => decide
  | grey => decide
  | index hindex => simpa using endsBackground_of_isIndex hindex

theorem brightBase?_eq_some (h : brightBase? word rest = some base) :
    word = "bright" ∧ rest = base.name :: rest.tail := by
  unfold brightBase? at h
  split at h
  · next hword =>
      obtain ⟨head, hhead, hname⟩ := Option.bind_eq_some_iff.mp h
      obtain ⟨tail, rfl⟩ := List.head?_eq_some_iff.mp hhead
      rw [BaseColor.ofName?_eq_some_iff.mp hname]
      exact ⟨hword, rfl⟩
  · cases h

theorem brightBase?_bright (base : BaseColor) (rest : List String) :
    brightBase? "bright" (base.name :: rest) = some base := by
  rw [brightBase?, if_pos rfl]
  exact BaseColor.ofName?_eq_some_iff.mpr rfl

theorem known_iff_of_plain (hattr : Attribute.ofWord? word = none)
    (hon : ¬ (word = "on" ∧ rest ≠ [])) (hbright : brightBase? word rest = none) :
    Known word rest ↔ NamesColor [word] := by
  constructor
  · intro h
    cases h with
    | attr attr hsome => cases hattr.symm.trans hsome
    | color hcolor => exact hcolor
    | bright color hword hafter =>
        subst hword hafter
        cases hbright.symm.trans (brightBase?_bright color _)
    | on hword hbackground =>
        have hrest : rest = [] := by simpa [hword] using hon
        subst hrest
        cases hbackground
  · exact .color

/-- An `on` with words behind it has to stand in front of a background. -/
theorem known_on_iff (hrest : rest ≠ []) :
    Known "on" rest ∨ PassedOver before "on" rest ↔
      NamesColor (rest.takeWhile (!endsBackground ·)) := by
  constructor
  · rintro (h | h)
    · cases h with
      | attr attr hsome => cases hsome
      | color hcolor => cases hcolor.endsBackground "on" (by simp)
      | bright color hword => exact absurd hword (by decide)
      | on _ hbackground => exact hbackground
    · exact absurd (h.not_on rfl) hrest
  · exact fun h => .inl (.on rfl h)

end

/-! ## Reading the words -/

/-- What holds while words are read. The color of the characters has been given if the words that
were read hold it, and a background is read to its end. -/
structure Reached (look : Rendition) (before words : List String) : Prop where
  space : ∀ word ∈ words, ' ' ∉ word.toList
  foreground : look.foreground.isSome = true ↔ PastForeground before
  closed : InBackground before → ∀ word ∈ words.head?, endsBackground word = true

section

variable {spec : String} {look next : Rendition} {before rest : List String} {word : String}

theorem Reached.attribute (h : Reached look before (word :: rest)) {attr : Attribute}
    (hattr : Attribute.ofWord? word = some attr) (attributes : List Attribute) :
    Reached { look with attributes } (before ++ [word]) rest where
  space := (List.forall_mem_cons.mp h.space).2
  foreground := by
    have hend : endsBackground word = true := by simp [endsBackground, hattr]
    simp [pastForeground_concat, hend, h.foreground]
  closed hopen := by
    have hend : endsBackground word = true := by simp [endsBackground, hattr]
    have hon : word ≠ "on" := by
      rintro rfl
      cases hattr
    exact absurd hopen (not_inBackground_concat hend hon)

theorem Reached.background (h : Reached look before ("on" :: rest)) (background : Option ColorRef) :
    Reached { look with background }
      (before ++ "on" :: rest.takeWhile (!endsBackground ·))
      (rest.dropWhile (!endsBackground ·)) := by
  have hinner : ∀ word ∈ rest.takeWhile (!endsBackground ·), endsBackground word = false := by
    intro word hword
    simpa using List.mem_takeWhile_imp hword
  have hopen : InBackground (before ++ ["on"]) := inBackground_concat.mpr (.inl rfl)
  constructor
  · intro word hword
    exact (List.forall_mem_cons.mp h.space).2 word ((List.dropWhile_suffix _).subset hword)
  · rw [List.append_cons, pastForeground_append hopen hinner, pastForeground_concat]
    simp [endsBackground, h.foreground]
  · intro _ word hword
    have hhead := List.head?_dropWhile_not (!endsBackground ·) rest
    rw [Option.mem_def.mp hword] at hhead
    simpa using hhead

theorem Reached.plain (h : Reached look before (word :: rest))
    (hword : endsBackground word = false) (hnext : next.foreground.isSome = true) :
    Reached next (before ++ [word]) rest := by
  have houtside : ¬ InBackground before := by
    intro hopen
    cases hword.symm.trans (h.closed hopen word rfl)
  constructor
  · exact (List.forall_mem_cons.mp h.space).2
  · exact iff_of_true hnext (pastForeground_concat.mpr (.inr ⟨hword, houtside⟩))
  · intro hopen
    rcases inBackground_concat.mp hopen with rfl | ⟨hbefore, _⟩
    · cases hword
    · exact absurd hbefore houtside

theorem Reached.bright {base : BaseColor} (h : Reached look before ("bright" :: base.name :: rest))
    (hnext : next.foreground.isSome = true) :
    Reached next (before ++ ["bright", base.name]) rest := by
  have hends := (NamesColor.bright base).endsBackground
  rw [List.append_cons]
  exact (h.plain (hends "bright" (by simp)) hnext).plain (hends base.name (by simp)) hnext

/-- A word that is passed over leaves everything as it is. -/
theorem Reached.passedOver (h : Reached look before (word :: rest))
    (hattr : Attribute.ofWord? word = none) (hon : ¬ (word = "on" ∧ rest ≠ []))
    (hgiven : look.foreground.isSome = true) : Reached look (before ++ [word]) rest := by
  by_cases hword : word = "on"
  · -- This is the last word, so it begins no background.
    have hrest : rest = [] := by simpa [hword] using hon
    subst hword hrest
    refine ⟨by simp, ?_, by simp⟩
    simp [pastForeground_concat, endsBackground, h.foreground]
  · exact h.plain (by simp [endsBackground, hattr, hword]) hgiven

theorem exists_bind_eq_ok_iff {ε α β : Type} {first : Except ε α} {next : α → Except ε β} :
    (∃ last, first >>= next = .ok last) ↔ ∃ a, first = .ok a ∧ ∃ last, next a = .ok last := by
  cases first <;> simp [bind, Except.bind]

/-- Reading goes on to the end exactly if each of the words is known or passed over. -/
theorem exists_readWords_iff {words : List String} (h : Reached look before words) :
    (∃ last, readWords spec look words = .ok last) ↔ Admitted before words := by
  fun_induction readWords spec look words generalizing before with
  | case1 look => exact iff_of_true ⟨look, rfl⟩ admitted_nil
  | case2 look word rest attr hattr ih =>
      rw [ih (h.attribute hattr _), admitted_cons_of_known (.attr attr hattr)]
  | case3 look word rest hattr hon ih =>
      obtain ⟨rfl, hrest⟩ := hon
      have hspace : ∀ word ∈ rest.takeWhile (!endsBackground ·), ' ' ∉ word.toList :=
        fun word hword =>
          h.space word (List.mem_cons_of_mem _ ((List.takeWhile_prefix _).subset hword))
      rw [exists_bind_eq_ok_iff, admitted_cons, known_on_iff hrest, ← namesColor_iff spec hspace,
        ← exists_and_right]
      refine exists_congr fun color => and_congr_right fun hcolor => ?_
      rw [admitted_background ((namesColor_iff spec hspace).mp ⟨color, hcolor⟩)]
      exact ih color (h.background (some color))
  | case4 look word rest hattr hon base hnone hbright ih =>
      obtain ⟨rfl, hrest⟩ := brightBase?_eq_some hbright
      rw [hrest] at h ⊢
      exact (ih (h.bright rfl)).trans (admitted_append (.bright base)).symm
  | case5 look word rest hattr hon base color hsome hbright ih =>
      obtain ⟨rfl, hrest⟩ := brightBase?_eq_some hbright
      rw [hrest] at h ⊢
      exact (ih (h.bright (by rw [hsome]; rfl))).trans (admitted_append (.bright base)).symm
  | case6 look word rest hattr hon color hsome hbright ih =>
      have hgiven : look.foreground.isSome = true := by rw [hsome]; rfl
      have hpast : PastForeground before := h.foreground.mp hgiven
      have houtside : InBackground before → endsBackground word = true :=
        fun hopen => h.closed hopen word rfl
      have hlast : word = "on" → rest = [] := by simpa using hon
      rw [ih (h.passedOver hattr hon hgiven), admitted_cons,
        and_iff_right (.inr ⟨hpast, houtside, hlast⟩)]
  | case7 look word rest hattr hon hnone hbright ih =>
      have hfirst : ¬ PastForeground before := by
        rw [← h.foreground, hnone]
        simp
      have hword : Known word rest ∨ PassedOver before word rest ↔ NamesColor [word] := by
        rw [or_iff_left fun hpassed => hfirst hpassed.past, known_iff_of_plain hattr hon hbright]
      have hspace : ∀ other ∈ [word], ' ' ∉ other.toList := by simpa using h.space word (by simp)
      have hcolor : (∃ color, colorName spec word = .ok color) ↔ NamesColor [word] :=
        namesColor_iff spec hspace
      rw [exists_bind_eq_ok_iff, admitted_cons, hword, ← hcolor, ← exists_and_right]
      refine exists_congr fun color => and_congr_right fun hread => ?_
      have hend := (hcolor.mp ⟨color, hread⟩).endsBackground word (by simp)
      exact ih color (h.plain hend rfl)

end

theorem reached_specWords (spec : String) : Reached {} [] (specWords spec) := by
  refine ⟨?_, ?_, fun hopen => absurd hopen not_inBackground_nil⟩
  · intro word hword hspace
    obtain ⟨run, hrun, rfl⟩ := List.mem_map.mp hword
    have hblank := (Text.forall_not_isBlank_of_mem_wordRuns hrun).2 ' ' (by simpa using hspace)
    revert hblank
    decide
  · exact iff_of_false (by simp) not_pastForeground_nil

/-- A description is accepted exactly if each of its words is known or passed over. -/
theorem exists_ofSpec_iff (spec : String) :
    (∃ look, ofSpec spec = .ok look) ↔
      ∀ before word after, specWords spec = before ++ word :: after →
        Known word after ∨ PassedOver before word after := by
  exact exists_readWords_iff (reached_specWords spec)

/-- Behind the color of the characters a word is accepted that means nothing. -/
theorem ofSpec_redChartreuse :
    specWords "red chartreuse" = ["red"] ++ "chartreuse" :: [] ∧
      ofSpec "red chartreuse" = .ok { foreground := some (.named "red") } ∧
      ¬ Known "chartreuse" [] := by
  refine ⟨by decide +kernel, by decide +kernel, fun h => ?_⟩
  have hnames : NamesColor ["chartreuse"] :=
    (known_iff_of_plain (by decide) (by decide) (by decide)).mp h
  obtain ⟨color, hcolor⟩ := (namesColor_iff "red chartreuse" (by simp)).mpr hnames
  have herror : colorName "red chartreuse" "chartreuse" =
      .error (.unknownColor "chartreuse" "red chartreuse") := by
    decide +kernel
  cases herror.symm.trans hcolor

end Rendition

end ShellPrompt
