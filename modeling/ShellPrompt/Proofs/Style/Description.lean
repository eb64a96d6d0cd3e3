import ShellPrompt.Proofs.Style.Parameters
import ShellPrompt.Proofs.Style.Rendition
import ShellPrompt.Proofs.Style.Words

/-! # What an accepted description says

The rendition of an accepted description has the attributes that are named anywhere in it, the first
color of the characters and the last background. Its escape sequence sets these and nothing else. -/

namespace ShellPrompt

/-! ## Palette indices -/

/-- Whether a color is the one of a palette index, in front and behind. -/
structure ColorRef.Selects (color : ColorRef) (index : Nat) : Prop where
  le_max : index ≤ paletteMax
  parameter_eq : ∀ ground, color.parameter ground = .ok (indexParameter ground index)

theorem ColorRef.Selects.unique {color : ColorRef} {first second : Nat}
    (hfirst : color.Selects first) (hsecond : color.Selects second) : first = second := by
  have hparameter : indexParameter .foreground first = indexParameter .foreground second :=
    Except.ok.inj ((hfirst.parameter_eq _).symm.trans (hsecond.parameter_eq _))
  rw [Setting.indexParameter_eq hfirst.le_max,
    Setting.indexParameter_eq hsecond.le_max] at hparameter
  have hsetting := Setting.text_injective (Option.some.inj hparameter)
  simpa using hsetting

theorem Text.isDigit_of_isDigit {c : Char} (h : c.isDigit = true) : Text.isDigit c = true := by
  have hdigits : ∀ d < 10, Text.isDigit (Nat.digitChar d) = true := by decide
  obtain ⟨d, hd, rfl⟩ := Numeral.exists_digitChar h
  exact hdigits d hd

namespace Rendition

/-- Words that name a color together, and its palette index. -/
inductive NamesIndex : List String → Nat → Prop where
  | base (color : BaseColor) : NamesIndex [color.name] color.index
  | bright (color : BaseColor) : NamesIndex ["bright", color.name] (color.index + 8)
  | gray : NamesIndex ["gray"] 8
  | grey : NamesIndex ["grey"] 8
  | index {word : String} (h : IsIndex word) :
      NamesIndex [word] (Nat.ofDigitChars 10 word.toList 0)

section

variable {words : List String} {index : Nat}

theorem NamesIndex.namesColor (h : NamesIndex words index) : NamesColor words := by
  cases h with
  | base color => exact .base color
  | bright color => exact .bright color
  | gray => exact .gray
  | grey => exact .grey
  | index hindex => exact .index hindex

theorem NamesColor.exists_index (h : NamesColor words) : ∃ index, NamesIndex words index := by
  cases h with
  | base color => exact ⟨_, .base color⟩
  | bright color => exact ⟨_, .bright color⟩
  | gray => exact ⟨_, .gray⟩
  | grey => exact ⟨_, .grey⟩
  | index hindex => exact ⟨_, .index hindex⟩

theorem paletteIndex?_of_isIndex {word : String} (h : IsIndex word) :
    paletteIndex? word = none := by
  have hdigits : word.toList.all Char.isDigit = true := List.all_eq_true.mpr h.isDigit
  rw [← Option.not_isSome_iff_eq_none, isSome_paletteIndex?_iff]
  rintro (⟨color, rfl⟩ | (rfl | rfl) | ⟨color, rfl⟩)
  · cases color <;> revert hdigits <;> decide
  · revert hdigits
    decide
  · revert hdigits
    decide
  · cases color <;> revert hdigits <;> decide

theorem selects_of_paletteIndex? {name : String} (h : paletteIndex? name = some index)
    (hmax : index ≤ paletteMax) : (ColorRef.named name).Selects index := by
  refine ⟨hmax, fun ground => ?_⟩
  have hlower : Text.toLower name = name := toLower_of_paletteIndex? (Option.isSome_of_eq_some h)
  rw [ColorRef.parameter, hlower, h]

theorem selects_name (color : BaseColor) : (ColorRef.named color.name).Selects color.index :=
  selects_of_paletteIndex? (by cases color <;> rfl) (by cases color <;> decide)

theorem selects_brightName (color : BaseColor) :
    (ColorRef.named color.brightName).Selects (color.index + 8) :=
  selects_of_paletteIndex? (by cases color <;> rfl) (by cases color <;> decide)

/-- The color that words name has their index. -/
theorem NamesIndex.selects (h : NamesIndex words index) :
    (ColorRef.named (Text.join " " words)).Selects index := by
  cases h with
  | base color => exact selects_name color
  | bright color =>
      have hname : Text.join " " ["bright", color.name] = color.brightName := by
        cases color <;> rfl
      rw [hname]
      exact selects_brightName color
  | gray => exact selects_of_paletteIndex? rfl (by decide)
  | grey => exact selects_of_paletteIndex? rfl (by decide)
  | @index word hindex =>
      refine ⟨hindex.le_max, fun ground => ?_⟩
      have hword : word ≠ "" := by simpa using hindex.ne_empty
      have hdigits : word.toList.all Text.isDigit = true :=
        List.all_eq_true.mpr fun c hc => Text.isDigit_of_isDigit (hindex.isDigit c hc)
      have hjoin : Text.join " " [word] = word := rfl
      rw [hjoin, ColorRef.parameter, Text.toLower_of_isDigit hindex.isDigit]
      simp only [paletteIndex?_of_isIndex hindex]
      rw [if_pos ⟨hword, hdigits⟩, Numeral.read_of_isDigit hindex.ne_empty hindex.isDigit,
        if_pos hindex.length_le]
      rfl

theorem NamesIndex.unique {other : Nat} (h : NamesIndex words index)
    (hother : NamesIndex words other) : index = other :=
  h.selects.unique hother.selects

theorem colorName_eq_ok {spec name : String} {color : ColorRef}
    (h : colorName spec name = .ok color) : color = .named name := by
  unfold colorName at h
  split at h
  · exact (Except.ok.inj h).symm
  · split at h
    · split at h
      · split at h
        · exact (Except.ok.inj h).symm
        · cases h
      · cases h
    · cases h

theorem exists_namesIndex {spec : String} {color : ColorRef}
    (hspace : ∀ word ∈ words, ' ' ∉ word.toList)
    (h : colorName spec (Text.join " " words) = .ok color) :
    ∃ index, NamesIndex words index ∧ color.Selects index := by
  obtain ⟨index, hindex⟩ := ((namesColor_iff spec hspace).mp ⟨color, h⟩).exists_index
  rw [colorName_eq_ok h]
  exact ⟨index, hindex, hindex.selects⟩

end

/-! ## The first color and the last background -/

/-- Whether words hold no background: behind an `on` there are no words. -/
def Backgroundless (words : List String) : Prop :=
  ∀ before after, words = before ++ "on" :: after → after = []

/-- Whether the last background that words hold has a palette index. -/
def LastBackground (words : List String) (index : Nat) : Prop :=
  ∃ before after, words = before ++ "on" :: after ∧ after ≠ [] ∧ Backgroundless after ∧
    NamesIndex (after.takeWhile (!endsBackground ·)) index

/-- Whether the first words that are no attributes and in no background name a color with a palette
index. -/
def FirstForeground (words : List String) (index : Nat) : Prop :=
  ∃ before names after, words = before ++ (names ++ after) ∧ ¬ InBackground before ∧
    ¬ PastForeground before ∧ NamesIndex names index

section

variable {before words rest : List String} {word : String} {index other : Nat}

theorem backgroundless_nil : Backgroundless [] := by
  simp [Backgroundless]

theorem backgroundless_cons_iff :
    Backgroundless (word :: rest) ↔ (word = "on" → rest = []) ∧ Backgroundless rest := by
  constructor
  · intro h
    refine ⟨fun hword => h [] rest (by rw [hword, List.nil_append]), fun before after hrest => ?_⟩
    exact h (word :: before) after (by rw [hrest, List.cons_append])
  · rintro ⟨hword, hrest⟩ before after happend
    cases before with
    | nil =>
        obtain ⟨rfl, rfl⟩ := List.cons.inj happend
        exact hword rfl
    | cons head before =>
        obtain ⟨rfl, htail⟩ := List.cons.inj happend
        exact hrest before after htail

theorem backgroundless_append_iff (h : "on" ∉ before) :
    Backgroundless (before ++ rest) ↔ Backgroundless rest := by
  induction before with
  | nil => rfl
  | cons word before ih =>
      simp only [List.mem_cons, not_or] at h
      rw [List.cons_append, backgroundless_cons_iff, ih h.2,
        and_iff_right fun hword => absurd hword.symm h.1]

theorem LastBackground.append (before : List String) (h : LastBackground rest index) :
    LastBackground (before ++ rest) index := by
  obtain ⟨first, after, rfl, hlast⟩ := h
  exact ⟨before ++ first, after, by rw [List.append_assoc], hlast⟩

theorem LastBackground.not_backgroundless (h : LastBackground words index) :
    ¬ Backgroundless words := by
  obtain ⟨before, after, rfl, hne, _⟩ := h
  exact fun hnone => hne (hnone before after rfl)

/-- An `on` with words behind it does not stand behind one whose background is the last. -/
theorem Backgroundless.length_le {first after tail : List String} (h : Backgroundless after)
    (hne : tail ≠ []) (heq : before ++ "on" :: after = first ++ "on" :: tail) :
    first.length ≤ before.length := by
  rcases List.append_eq_append_iff.mp heq with ⟨middle, rfl, hafter⟩ | ⟨middle, rfl, _⟩
  · cases middle with
    | nil => simp
    | cons head middle =>
        obtain ⟨_, htail⟩ := List.cons.inj hafter
        exact absurd (h middle tail htail) hne
  · simp

theorem LastBackground.unique (h : LastBackground words index)
    (hother : LastBackground words other) : index = other := by
  obtain ⟨before, after, hwords, hne, hlast, hindex⟩ := h
  obtain ⟨first, tail, hsame, htail, htailLast, hother⟩ := hother
  have heq : before ++ "on" :: after = first ++ "on" :: tail := hwords.symm.trans hsame
  have hlength : before.length = first.length :=
    Nat.le_antisymm (htailLast.length_le hne heq.symm) (hlast.length_le htail heq)
  obtain ⟨_, hafter⟩ := List.append_inj heq hlength
  obtain rfl : after = tail := (List.cons.inj hafter).2
  exact hindex.unique hother

/-- The words of a color are one word other than `bright`, or `bright` and a word. -/
theorem NamesColor.shape (h : NamesColor words) :
    (∃ word, words = [word] ∧ word ≠ "bright") ∨
      ∃ color : BaseColor, words = ["bright", color.name] := by
  cases h with
  | base color => exact .inl ⟨_, rfl, by cases color <;> decide⟩
  | bright color => exact .inr ⟨color, rfl⟩
  | gray => exact .inl ⟨_, rfl, by decide⟩
  | grey => exact .inl ⟨_, rfl, by decide⟩
  | index hindex =>
      refine .inl ⟨_, rfl, ?_⟩
      rintro rfl
      cases hindex.isDigit 'b' (by decide)

theorem NamesColor.eq_of_append {names first after tail : List String} (h : NamesColor names)
    (hfirst : NamesColor first) (heq : names ++ after = first ++ tail) : names = first := by
  obtain ⟨word, rfl, hword⟩ | ⟨color, rfl⟩ := h.shape
  · obtain ⟨other, rfl, _⟩ | ⟨color, rfl⟩ := hfirst.shape
    · exact congrArg ([·]) (List.cons.inj heq).1
    · exact absurd (List.cons.inj heq).1 hword
  · obtain ⟨other, rfl, hother⟩ | ⟨color', rfl⟩ := hfirst.shape
    · exact absurd (List.cons.inj heq).1.symm hother
    · simp only [List.cons_append, List.cons.injEq] at heq
      rw [heq.2.1]

theorem NamesColor.exists_cons (h : NamesColor words) :
    ∃ word rest, words = word :: rest ∧ Rendition.endsBackground word = false := by
  cases words with
  | nil => cases h
  | cons word rest => exact ⟨word, rest, rfl, h.endsBackground word (by simp)⟩

/-- The words of a color outside of a background are followed by words that are past one. -/
theorem pastForeground_of_namesColor {names after : List String} (houtside : ¬ InBackground before)
    (h : NamesColor names) : PastForeground (before ++ (names ++ after)) := by
  obtain ⟨word, rest, rfl, hword⟩ := h.exists_cons
  exact ⟨before, word, rest ++ after, rfl, hword, houtside⟩

theorem FirstForeground.pastForeground (h : FirstForeground words index) :
    PastForeground words := by
  obtain ⟨before, names, after, rfl, houtside, _, hindex⟩ := h
  exact pastForeground_of_namesColor houtside hindex.namesColor

/-- Words that are not past a color do not go beyond the beginning of one. -/
theorem NamesColor.length_le {first names after tail : List String} (h : NamesColor names)
    (houtside : ¬ InBackground before) (hfirst : ¬ PastForeground first)
    (heq : before ++ (names ++ after) = first ++ tail) : first.length ≤ before.length := by
  rcases List.append_eq_append_iff.mp heq with ⟨middle, rfl, hnames⟩ | ⟨middle, rfl, _⟩
  · cases middle with
    | nil => simp
    | cons head middle =>
        obtain ⟨word, inner, rfl, hword⟩ := h.exists_cons
        obtain ⟨rfl, _⟩ := List.cons.inj hnames
        exact absurd ⟨before, word, middle, rfl, hword, houtside⟩ hfirst
  · simp

theorem FirstForeground.unique (h : FirstForeground words index)
    (hother : FirstForeground words other) : index = other := by
  obtain ⟨before, names, after, hwords, houtside, hpast, hindex⟩ := h
  obtain ⟨first, others, tail, hsame, hfirstOutside, hfirstPast, hother⟩ := hother
  have heq : before ++ (names ++ after) = first ++ (others ++ tail) := hwords.symm.trans hsame
  have hlength : before.length = first.length :=
    Nat.le_antisymm (hother.namesColor.length_le hfirstOutside hpast heq.symm)
      (hindex.namesColor.length_le houtside hfirstPast heq)
  obtain ⟨_, hnames⟩ := List.append_inj heq hlength
  obtain rfl : names = others := hindex.namesColor.eq_of_append hother.namesColor hnames
  exact hindex.unique hother

end

/-! ## Reading -/

section

variable {spec : String} {look last : Rendition} {before words : List String} {word : String}

theorem ofWord?_eq_none (h : endsBackground word = false) : Attribute.ofWord? word = none := by
  simp only [endsBackground, Bool.or_eq_false_iff] at h
  simpa using h.1

/-- Words among which are no attributes name none. -/
theorem exists_ofWord?_append_iff {attr : Attribute} {rest : List String} (names : List String)
    (h : ∀ word ∈ names, Attribute.ofWord? word = none) :
    (∃ word ∈ names ++ rest, Attribute.ofWord? word = some attr) ↔
      ∃ word ∈ rest, Attribute.ofWord? word = some attr := by
  constructor
  · rintro ⟨word, hword, hattr⟩
    rcases List.mem_append.mp hword with hname | hrest
    · cases hattr.symm.trans (h word hname)
    · exact ⟨word, hrest, hattr⟩
  · rintro ⟨word, hword, hattr⟩
    exact ⟨word, List.mem_append_right _ hword, hattr⟩

theorem exists_ofWord?_cons_iff {attr : Attribute} {rest : List String}
    (h : Attribute.ofWord? word = none) :
    (∃ other ∈ word :: rest, Attribute.ofWord? other = some attr) ↔
      ∃ other ∈ rest, Attribute.ofWord? other = some attr :=
  exists_ofWord?_append_iff [word] (by simpa using h)

theorem exists_ofWord?_bright_iff {attr : Attribute} {rest : List String} {base : BaseColor}
    (h : brightBase? word rest = some base) :
    (∃ other ∈ word :: rest, Attribute.ofWord? other = some attr) ↔
      ∃ other ∈ rest.tail, Attribute.ofWord? other = some attr := by
  obtain ⟨rfl, hrest⟩ := brightBase?_eq_some h
  rw [hrest]
  exact exists_ofWord?_append_iff ["bright", base.name] fun word hword =>
    ofWord?_eq_none ((NamesColor.bright base).endsBackground word hword)

/-- The attributes are those that words name. -/
theorem mem_attributes_of_readWords {attr : Attribute} (h : readWords spec look words = .ok last) :
    attr ∈ last.attributes ↔
      attr ∈ look.attributes ∨ ∃ word ∈ words, Attribute.ofWord? word = some attr := by
  fun_induction readWords spec look words with
  | case1 look =>
      obtain rfl := Except.ok.inj h
      simp
  | case2 look word rest named hattr ih =>
      have hnamed : some named = some attr ↔ attr = named := by
        rw [Option.some.injEq, eq_comm]
      simp only [ih h, List.mem_cons, exists_eq_or_imp, hattr, hnamed, or_assoc, or_left_comm]
  | case3 look word rest hattr hon ih =>
      obtain ⟨color, _, hnext⟩ := exists_of_bind_eq_ok h
      have hinner : ∀ inner ∈ rest.takeWhile (!endsBackground ·), Attribute.ofWord? inner = none :=
        fun inner hinner => ofWord?_eq_none (by simpa using List.mem_takeWhile_imp hinner)
      rw [ih color hnext, exists_ofWord?_cons_iff hattr, ← exists_ofWord?_append_iff _ hinner,
        List.takeWhile_append_dropWhile]
  | case4 look word rest hattr hon base hnone hbright ih =>
      rw [ih h, exists_ofWord?_bright_iff hbright]
  | case5 look word rest hattr hon base color hsome hbright ih =>
      rw [ih h, exists_ofWord?_bright_iff hbright]
  | case6 look word rest hattr hon color hsome hbright ih =>
      rw [ih h, exists_ofWord?_cons_iff hattr]
  | case7 look word rest hattr hon hnone hbright ih =>
      obtain ⟨color, _, hnext⟩ := exists_of_bind_eq_ok h
      rw [ih color hnext, exists_ofWord?_cons_iff hattr]

/-- What words make of a background: the last one they hold, or the one there was if they hold
none. -/
def ReplacesBackground (words : List String) (previous background : Option ColorRef) : Prop :=
  Backgroundless words ∧ background = previous ∨
    ∃ index color, LastBackground words index ∧ background = some color ∧ color.Selects index

theorem ReplacesBackground.cons {rest : List String} {previous background : Option ColorRef}
    (h : ReplacesBackground rest previous background) (hword : word = "on" → rest = []) :
    ReplacesBackground (word :: rest) previous background := by
  rcases h with ⟨hnone, hsame⟩ | ⟨index, color, hlast, hcolor⟩
  · exact .inl ⟨backgroundless_cons_iff.mpr ⟨hword, hnone⟩, hsame⟩
  · exact .inr ⟨index, color, hlast.append [word], hcolor⟩

theorem ReplacesBackground.bright {rest : List String} {previous background : Option ColorRef}
    {base : BaseColor} (h : ReplacesBackground rest.tail previous background)
    (hbright : brightBase? word rest = some base) :
    ReplacesBackground (word :: rest) previous background := by
  obtain ⟨rfl, hrest⟩ := brightBase?_eq_some hbright
  have hname : base.name ≠ "on" := by cases base <;> decide
  rw [hrest]
  exact (h.cons fun hon => absurd hon hname).cons fun hon => absurd hon (by decide)

/-- A background is in force until the next one. -/
theorem ReplacesBackground.on {rest : List String} {previous background : Option ColorRef}
    {color : ColorRef} {index : Nat}
    (h : ReplacesBackground (rest.dropWhile (!endsBackground ·)) (some color) background)
    (hrest : rest ≠ []) (hindex : NamesIndex (rest.takeWhile (!endsBackground ·)) index)
    (hcolor : color.Selects index) : ReplacesBackground ("on" :: rest) previous background := by
  have hdivided : rest.takeWhile (!endsBackground ·) ++ rest.dropWhile (!endsBackground ·) = rest :=
    List.takeWhile_append_dropWhile
  rcases h with ⟨hnone, hsame⟩ | ⟨later, last, hlast, hbackground⟩
  · have hinner : "on" ∉ rest.takeWhile (!endsBackground ·) := by
      intro hmem
      simpa [endsBackground] using List.mem_takeWhile_imp hmem
    have hafter : Backgroundless rest := by
      rw [← hdivided]
      exact (backgroundless_append_iff hinner).mpr hnone
    exact .inr ⟨index, color, ⟨[], rest, rfl, hrest, hafter, hindex⟩, hsame, hcolor⟩
  · have hwords := hlast.append ("on" :: rest.takeWhile (!endsBackground ·))
    rw [List.cons_append, hdivided] at hwords
    exact .inr ⟨later, last, hwords, hbackground⟩

/-- The background is the last one, or the one there was if the words hold none. -/
theorem background_of_readWords (hspace : ∀ word ∈ words, ' ' ∉ word.toList)
    (h : readWords spec look words = .ok last) :
    ReplacesBackground words look.background last.background := by
  fun_induction readWords spec look words with
  | case1 look =>
      obtain rfl := Except.ok.inj h
      exact .inl ⟨backgroundless_nil, rfl⟩
  | case2 look word rest attr hattr ih =>
      refine (ih (List.forall_mem_cons.mp hspace).2 h).cons ?_
      rintro rfl
      cases hattr
  | case3 look word rest hattr hon ih =>
      obtain ⟨rfl, hrest⟩ := hon
      obtain ⟨color, hcolor, hnext⟩ := exists_of_bind_eq_ok h
      have hspaces := (List.forall_mem_cons.mp hspace).2
      have hnames : ∀ word ∈ rest.takeWhile (!endsBackground ·), ' ' ∉ word.toList :=
        fun word hword => hspaces word ((List.takeWhile_prefix _).subset hword)
      obtain ⟨index, hindex, hselects⟩ := exists_namesIndex hnames hcolor
      have hlater := ih color
        (fun word hword => hspaces word ((List.dropWhile_suffix _).subset hword)) hnext
      exact hlater.on hrest hindex hselects
  | case4 look word rest hattr hon base hnone hbright ih =>
      have hspaces := (List.forall_mem_cons.mp hspace).2
      exact (ih (fun word hword => hspaces word (List.mem_of_mem_tail hword)) h).bright hbright
  | case5 look word rest hattr hon base color hsome hbright ih =>
      have hspaces := (List.forall_mem_cons.mp hspace).2
      exact (ih (fun word hword => hspaces word (List.mem_of_mem_tail hword)) h).bright hbright
  | case6 look word rest hattr hon color hsome hbright ih =>
      exact (ih (List.forall_mem_cons.mp hspace).2 h).cons (by simpa using hon)
  | case7 look word rest hattr hon hnone hbright ih =>
      obtain ⟨color, _, hnext⟩ := exists_of_bind_eq_ok h
      exact (ih color (List.forall_mem_cons.mp hspace).2 hnext).cons (by simpa using hon)

/-- Where no color was given yet, the next words that name one are the first. -/
theorem Reached.firstForeground {names rest : List String} {index : Nat}
    (h : Reached look before (names ++ rest)) (hnone : look.foreground = none)
    (hindex : NamesIndex names index) : FirstForeground (before ++ (names ++ rest)) index := by
  refine ⟨before, names, rest, rfl, fun hopen => ?_, fun hpast => ?_, hindex⟩
  · obtain ⟨word, inner, rfl, hword⟩ := hindex.namesColor.exists_cons
    cases hword.symm.trans (h.closed hopen word rfl)
  · have hsome := h.foreground.mpr hpast
    rw [hnone] at hsome
    cases hsome

/-- Whether a color of the characters is one there was before some words were read, or the first of
these words. -/
def FromForeground (words : List String) (previous foreground : Option ColorRef) : Prop :=
  ∀ color ∈ foreground, color ∈ previous ∨
    ∃ index, FirstForeground words index ∧ color.Selects index

theorem FromForeground.of_first {color : ColorRef} {previous foreground : Option ColorRef}
    {index : Nat} (h : FromForeground words (some color) foreground)
    (hfirst : FirstForeground words index) (hcolor : color.Selects index) :
    FromForeground words previous foreground := by
  intro given hgiven
  rcases h given hgiven with hsame | hlater
  · obtain rfl : color = given := Option.some.inj hsame
    exact .inr ⟨index, hfirst, hcolor⟩
  · exact .inr hlater

/-- The color of the characters is the one there was, or the first one. -/
theorem foreground_of_readWords (hreached : Reached look before words)
    (h : readWords spec look words = .ok last) :
    Reached last (before ++ words) [] ∧
      FromForeground (before ++ words) look.foreground last.foreground := by
  fun_induction readWords spec look words generalizing before with
  | case1 look =>
      obtain rfl := Except.ok.inj h
      rw [List.append_nil]
      exact ⟨hreached, fun color hcolor => .inl hcolor⟩
  | case2 look word rest attr hattr ih =>
      rw [List.append_cons]
      exact ih (hreached.attribute hattr _) h
  | case3 look word rest hattr hon ih =>
      obtain ⟨rfl, _⟩ := hon
      obtain ⟨color, _, hnext⟩ := exists_of_bind_eq_ok h
      have hlater := ih color (hreached.background (some color)) hnext
      rwa [List.append_assoc, List.cons_append, List.takeWhile_append_dropWhile] at hlater
  | case4 look word rest hattr hon base hnone hbright ih =>
      obtain ⟨rfl, hrest⟩ := brightBase?_eq_some hbright
      rw [hrest] at hreached ⊢
      have hnames : NamesIndex ["bright", base.name] (base.index + 8) := .bright base
      have hfirst := hreached.firstForeground hnone hnames
      obtain ⟨hend, hlater⟩ := ih (hreached.bright rfl) h
      rw [List.append_assoc] at hend hlater
      exact ⟨hend, hlater.of_first hfirst (selects_brightName base)⟩
  | case5 look word rest hattr hon base color hsome hbright ih =>
      obtain ⟨rfl, hrest⟩ := brightBase?_eq_some hbright
      rw [hrest] at hreached ⊢
      have hlater := ih (hreached.bright (by rw [hsome]; rfl)) h
      rwa [List.append_assoc] at hlater
  | case6 look word rest hattr hon color hsome hbright ih =>
      rw [List.append_cons]
      exact ih (hreached.passedOver hattr hon (by rw [hsome]; rfl)) h
  | case7 look word rest hattr hon hnone hbright ih =>
      obtain ⟨color, hcolor, hnext⟩ := exists_of_bind_eq_ok h
      have hspace : ∀ other ∈ [word], ' ' ∉ other.toList := by
        simpa using hreached.space word (by simp)
      obtain ⟨index, hindex, hselects⟩ := exists_namesIndex hspace hcolor
      have hfirst : FirstForeground (before ++ ([word] ++ rest)) index :=
        hreached.firstForeground hnone hindex
      have hend := hindex.namesColor.endsBackground word (by simp)
      obtain ⟨hreachedLast, hlater⟩ := ih color (hreached.plain hend rfl) hnext
      rw [List.append_assoc] at hreachedLast hlater
      exact ⟨hreachedLast, hlater.of_first hfirst hselects⟩

end

/-! ## What the escape sequence sets -/

theorem ofWord?_eq_some_iff {word : String} {attr : Attribute} :
    Attribute.ofWord? word = some attr ↔ word = attr.name ∨ word = "inverse" ∧ attr = .reverse := by
  constructor
  · intro h
    rcases Attribute.eq_of_ofWord? h with rfl | hname
    · exact .inr ⟨rfl, (Option.some.inj h).symm⟩
    · exact .inl hname
  · rintro (rfl | ⟨rfl, rfl⟩)
    · cases attr <;> decide
    · rfl

/-- What is set for attributes and for palette indices of the characters and of what is behind
them. -/
def settings (attributes : List Attribute) (foreground background : Option Nat) : List Setting :=
  attributes.map .switch ++ foreground.toList.map (.color .foreground) ++
    background.toList.map (.color .background)

/-- What words say of the look of a text: every attribute that is named, the first color of the
characters and the last background. -/
structure Tells (words : List String) (attributes : List Attribute)
    (foreground background : Option Nat) : Prop where
  nodup : attributes.Nodup
  mem_attributes_iff : ∀ attr, attr ∈ attributes ↔
    ∃ word ∈ words, word = attr.name ∨ word = "inverse" ∧ attr = .reverse
  foreground_iff : ∀ index, foreground = some index ↔ FirstForeground words index
  no_foreground_iff : foreground = none ↔ ¬ PastForeground words
  background_iff : ∀ index, background = some index ↔ LastBackground words index
  no_background_iff : background = none ↔ Backgroundless words

section

variable {spec : String} {look : Rendition} {foreground background : Option Nat}

theorem colorParameter_eq {color : Option ColorRef} {index : Option Nat}
    (h : Option.Rel ColorRef.Selects color index) (ground : Ground) :
    colorParameter ground color = .ok (index.map fun n => (Setting.color ground n).text) := by
  cases h with
  | none => rfl
  | some hselects =>
      rw [colorParameter, hselects.parameter_eq, Setting.indexParameter_eq hselects.le_max]
      rfl

theorem sequence_eq (hforeground : Option.Rel ColorRef.Selects look.foreground foreground)
    (hbackground : Option.Rel ColorRef.Selects look.background background) :
    look.sequence = .ok (sequenceOf
      ((settings look.attributesInOrder foreground background).map Setting.text)) := by
  have hattributes : look.attributesInOrder.map (fun attr => toString attr.code) =
      (look.attributesInOrder.map Setting.switch).map Setting.text := by
    rw [List.map_map]
    rfl
  rw [sequence, parameters, colorParameter_eq hforeground, colorParameter_eq hbackground,
    hattributes, settings]
  cases foreground <;> cases background <;> simp [bind, Except.bind, pure, Except.pure, Except.map]

/-- Where words say at most one palette index, and a color is given exactly if they say one, the
index of the color is the one they say. -/
theorem exists_index {color : Option ColorRef} {Says : Nat → Prop} {Silent : Prop}
    (hunique : ∀ first second, Says first → Says second → first = second)
    (hspoken : ∀ index, Says index → ¬ Silent)
    (h : Silent ∧ color = none ∨
      ∃ index given, Says index ∧ color = some given ∧ given.Selects index) :
    ∃ index, Option.Rel ColorRef.Selects color index ∧ (∀ n, index = some n ↔ Says n) ∧
      (index = none ↔ Silent) := by
  rcases h with ⟨hsilent, rfl⟩ | ⟨index, given, hindex, rfl, hselects⟩
  · refine ⟨none, .none, fun n => iff_of_false (by simp) fun hn => ?_, iff_of_true rfl hsilent⟩
    exact hspoken n hn hsilent
  · refine ⟨some index, .some hselects, fun n => ⟨?_, fun hn => ?_⟩,
      iff_of_false (by simp) (hspoken index hindex)⟩
    · rintro ⟨⟩
      exact hindex
    · rw [hunique index n hindex hn]

theorem exists_foreground_of_ofSpec (h : ofSpec spec = .ok look) :
    ∃ foreground, Option.Rel ColorRef.Selects look.foreground foreground ∧
      (∀ index, foreground = some index ↔ FirstForeground (specWords spec) index) ∧
      (foreground = none ↔ ¬ PastForeground (specWords spec)) := by
  obtain ⟨hreached, hfrom⟩ := foreground_of_readWords (reached_specWords spec) h
  rw [List.nil_append] at hreached hfrom
  refine exists_index (fun _ _ => FirstForeground.unique)
    (fun index hindex => not_not.mpr hindex.pastForeground) ?_
  cases hlook : look.foreground with
  | none =>
      refine .inl ⟨?_, rfl⟩
      rw [← hreached.foreground, hlook]
      simp
  | some color =>
      rcases hfrom color hlook with hgiven | ⟨index, hfirst, hselects⟩
      · cases hgiven
      · exact .inr ⟨index, color, hfirst, rfl, hselects⟩

theorem exists_background_of_ofSpec (h : ofSpec spec = .ok look) :
    ∃ background, Option.Rel ColorRef.Selects look.background background ∧
      (∀ index, background = some index ↔ LastBackground (specWords spec) index) ∧
      (background = none ↔ Backgroundless (specWords spec)) :=
  exists_index (fun _ _ => LastBackground.unique) (fun _ hindex => hindex.not_backgroundless)
    (background_of_readWords (reached_specWords spec).space h)

theorem nodup_attributesInOrder (look : Rendition) : look.attributesInOrder.Nodup :=
  List.filter_sublist.nodup (by decide)

theorem mem_attributesInOrder_iff {attr : Attribute} :
    attr ∈ look.attributesInOrder ↔ attr ∈ look.attributes := by
  have hall : attr ∈ Attribute.all := by cases attr <;> decide
  simp [attributesInOrder, has, hall]

/-- An `on` alone is no description. -/
theorem specWords_ne_on (h : ofSpec spec = .ok look) : specWords spec ≠ ["on"] := by
  intro hwords
  have hadmitted := (exists_readWords_iff (reached_specWords spec)).mp ⟨look, h⟩
  rw [hwords, admitted_cons] at hadmitted
  rcases hadmitted.1 with hknown | hpassed
  · have hcolor := (known_iff_of_plain (by decide) (by decide) (by decide)).mp hknown
    cases hcolor.endsBackground "on" (by simp)
  · exact not_pastForeground_nil hpassed.past

/-- Words that say nothing are none, or an `on` alone. -/
theorem Tells.eq_nil_or_on {words : List String} (h : Tells words [] none none) :
    words = [] ∨ words = ["on"] := by
  cases words with
  | nil => exact .inl rfl
  | cons word rest =>
      have hattr : Attribute.ofWord? word = none := by
        rw [Option.eq_none_iff_forall_ne_some]
        intro attr hattr
        have hmem := (h.mem_attributes_iff attr).mpr ⟨word, by simp, ofWord?_eq_some_iff.mp hattr⟩
        cases hmem
      have hon : word = "on" := by
        by_contra hon
        have hend : endsBackground word = false := by simp [endsBackground, hattr, hon]
        exact h.no_foreground_iff.mp rfl ⟨[], word, rest, rfl, hend, not_inBackground_nil⟩
      obtain rfl := (backgroundless_cons_iff.mp (h.no_background_iff.mp rfl)).1 hon
      exact .inr (by rw [hon])

theorem Tells.settings_eq_nil_iff {words : List String} {attributes : List Attribute}
    (h : Tells words attributes foreground background) (hon : words ≠ ["on"]) :
    settings attributes foreground background = [] ↔ words = [] := by
  have hsettings : settings attributes foreground background = [] ↔
      attributes = [] ∧ foreground = none ∧ background = none := by
    simp [settings]
  rw [hsettings]
  constructor
  · rintro ⟨rfl, rfl, rfl⟩
    exact h.eq_nil_or_on.resolve_right hon
  · rintro rfl
    have hattributes : attributes = [] := by
      refine List.eq_nil_iff_forall_not_mem.mpr fun attr hattr => ?_
      obtain ⟨word, hword, _⟩ := (h.mem_attributes_iff attr).mp hattr
      cases hword
    exact ⟨hattributes, h.no_foreground_iff.mpr not_pastForeground_nil,
      h.no_background_iff.mpr backgroundless_nil⟩

/-- The escape sequence of an accepted description sets what its words say, and is empty only if
there are none. -/
theorem exists_sequence_of_ofSpec (h : ofSpec spec = .ok look) :
    ∃ code attributes foreground background, look.sequence = .ok code ∧
      Setting.ofSequence? code = some (settings attributes foreground background) ∧
      Tells (specWords spec) attributes foreground background ∧
      (code = "" ↔ specWords spec = []) := by
  obtain ⟨foreground, hforeground, hfirst, hnoFirst⟩ := exists_foreground_of_ofSpec h
  obtain ⟨background, hbackground, hlast, hnoLast⟩ := exists_background_of_ofSpec h
  have htells : Tells (specWords spec) look.attributesInOrder foreground background := by
    refine ⟨nodup_attributesInOrder look, fun attr => ?_, hfirst, hnoFirst, hlast, hnoLast⟩
    rw [mem_attributesInOrder_iff, mem_attributes_of_readWords h]
    simp [ofWord?_eq_some_iff]
  refine ⟨_, look.attributesInOrder, foreground, background, sequence_eq hforeground hbackground,
    Setting.ofSequence?_sequenceOf _, htells, ?_⟩
  rw [Setting.sequenceOf_eq_empty_iff, List.map_eq_nil_iff]
  exact htells.settings_eq_nil_iff (specWords_ne_on h)

end

/-- The first color and the last background of several, with an attribute under both its names. -/
theorem exists_sequence_of_ofSpec_repeated :
    let look : Rendition :=
      { foreground := some (.named "bright red"), background := some (.named "white"),
        attributes := [.reverse, .reverse, .bold] }
    ofSpec "Bold bright_red on 007 inverse on White reverse blue" = .ok look ∧
      ∃ code attributes foreground background, look.sequence = .ok code ∧
        Setting.ofSequence? code = some (settings attributes foreground background) ∧
        Tells (specWords "Bold bright_red on 007 inverse on White reverse blue") attributes
          foreground background ∧
        (code = "" ↔ specWords "Bold bright_red on 007 inverse on White reverse blue" = []) :=
  have hread : ofSpec "Bold bright_red on 007 inverse on White reverse blue" = .ok
      { foreground := some (.named "bright red"), background := some (.named "white"),
        attributes := [.reverse, .reverse, .bold] } := by decide +kernel
  ⟨hread, exists_sequence_of_ofSpec hread⟩

end Rendition

end ShellPrompt
