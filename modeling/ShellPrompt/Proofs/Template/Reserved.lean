import ShellPrompt.Proofs.Template.Lexeme

/-! # Reserved words

`end` and `else` are tags of conditionals and name nothing. A tag that has one of them where an
identifier is expected is no tag at all. -/

namespace ShellPrompt.Template

open Text

variable {styles : StyleTable}

/-! ## Which tags classify -/

/-- The classification of tags, a rule for each kind. -/
inductive Classified (styles : StyleTable) : List Char → Lexeme → Prop where
  | close : Classified styles "end".toList .close
  | alternate : Classified styles "else".toList .alternate
  | style {body name} : styleTag? styles body = some name → Classified styles body (.style name)
  | header {body condition} : styleTag? styles body = none → headerTag? body = some condition →
      Classified styles body (.header condition)
  | component {body name pairs} : styleTag? styles body = none →
      componentTag? body = some (name, pairs) → Classified styles body (.component name pairs)

theorem classified_of_tag? {body : List Char} {lexeme : Lexeme}
    (h : tag? styles body = some lexeme) : Classified styles body lexeme := by
  unfold tag? at h
  split at h
  · rename_i hend
    obtain rfl := Option.some.inj h
    rw [hend]
    exact .close
  · split at h
    · rename_i helse
      obtain rfl := Option.some.inj h
      rw [helse]
      exact .alternate
    · split at h
      · rename_i hstyle
        obtain rfl := Option.some.inj h
        exact .style hstyle
      · rename_i hstyle hheader
        obtain rfl := Option.some.inj h
        exact .header hstyle hheader
      · rename_i hstyle _ hcomponent
        obtain rfl := Option.some.inj h
        exact .component hstyle hcomponent
      · cases h

theorem tag?_eq_close_iff {body : List Char} :
    tag? styles body = some .close ↔ body = "end".toList := by
  constructor
  · intro h
    cases classified_of_tag? h
    rfl
  · intro hend
    rw [tag?, if_pos hend]

theorem tag?_eq_alternate_iff {body : List Char} :
    tag? styles body = some .alternate ↔ body = "else".toList := by
  constructor
  · intro h
    cases classified_of_tag? h
    rfl
  · intro helse
    rw [tag?, if_neg (by rw [helse]; decide), if_pos helse]

theorem tag?_ne_text {body : List Char} (run : String) : tag? styles body ≠ some (.text run) := by
  intro h
  cases classified_of_tag? h

theorem styleTag?_reserved : ∀ word ∈ reservedWords, styleTag? styles word.toList = none := by
  intro word hword
  have htrimmed : ∀ other ∈ reservedWords, String.ofList (trimmed other.toList) = other := by decide
  rw [styleTag?, htrimmed word hword, if_neg]
  rintro ⟨hname, _⟩
  exact hname.2 hword

theorem headerTag?_reserved : ∀ word ∈ reservedWords, headerTag? word.toList = none := by
  decide

theorem componentTag?_reserved : ∀ word ∈ reservedWords, componentTag? word.toList = none := by
  decide

theorem tag?_eq_none_iff {body : List Char} :
    tag? styles body = none ↔ body ≠ "end".toList ∧ body ≠ "else".toList ∧
      styleTag? styles body = none ∧ headerTag? body = none ∧ componentTag? body = none := by
  unfold tag?
  split
  · simp [*]
  · rename_i hend
    split
    · simp [*]
    · rename_i helse
      split <;> simp_all

/-- No component is named so that its tag could be the header of a conditional. -/
theorem componentTag?_of_headerTag? {body : List Char} {condition : Condition}
    (h : headerTag? body = some condition) : componentTag? body = none := by
  obtain ⟨before, between, name, _, _, hbefore, _, rfl⟩ := headerTag?_eq_some_iff.mp h
  have hif : Stops isBlank (['i', 'f'] ++ (between ++ name.toList)) := stops_cons.mpr (by decide)
  apply Option.eq_none_iff_forall_ne_some.mpr
  rintro ⟨component, pairs⟩ hcomponent
  obtain ⟨blank, inner, hblank, _, _, heq⟩ := componentTag?_eq_some_iff.mp hcomponent
  have hname := isName_identifier component
  have hinner : Stops isBlank (component.identifier.toList ++ inner) :=
    stops_isBlank_append hname.ne_nil hname.not_blank
  -- Behind its blanks the text would begin both with `if` and with the name of the component.
  have hdrop := congrArg (List.dropWhile isBlank) heq
  rw [List.append_assoc, List.append_assoc, dropWhile_append_of_stops hbefore hif,
    dropWhile_append_of_stops hblank hinner] at hdrop
  cases component <;> simp [ComponentName.identifier] at hdrop

theorem headerTag?_of_componentTag? {body : List Char}
    {result : ComponentName × List (String × String)} (h : componentTag? body = some result) :
    headerTag? body = none := by
  apply Option.eq_none_iff_forall_ne_some.mpr
  intro condition hheader
  rw [componentTag?_of_headerTag? hheader] at h
  cases h

/-! ## What a tag is -/

section

variable {body : List Char}

theorem ne_reserved_of_eq_some {α : Type} {classify : List Char → Option α} {value : α}
    (hnone : ∀ word ∈ reservedWords, classify word.toList = none)
    (h : classify body = some value) : ∀ word ∈ reservedWords, body ≠ word.toList := by
  rintro word hword rfl
  cases (hnone word hword).symm.trans h

theorem tag?_of_ne_reserved (h : ∀ word ∈ reservedWords, body ≠ word.toList) :
    tag? styles body = match styleTag? styles body, headerTag? body, componentTag? body with
      | some name, _, _ => some (.style name)
      | none, some condition, _ => some (.header condition)
      | none, none, some (name, pairs) => some (.component name pairs)
      | none, none, none => none := by
  have hend := h "end" (by decide)
  have helse := h "else" (by decide)
  exact (if_neg hend).trans (if_neg helse)

theorem tag?_eq_style_iff {name : String} :
    tag? styles body = some (.style name) ↔ styleTag? styles body = some name := by
  constructor
  · intro h
    cases classified_of_tag? h with
    | style hstyle => exact hstyle
  · intro h
    rw [tag?_of_ne_reserved (ne_reserved_of_eq_some styleTag?_reserved h), h]

theorem tag?_eq_header_iff {condition : Condition} :
    tag? styles body = some (.header condition) ↔
      styleTag? styles body = none ∧ headerTag? body = some condition := by
  constructor
  · intro h
    cases classified_of_tag? h with
    | header hstyle hheader => exact ⟨hstyle, hheader⟩
  · rintro ⟨hstyle, hheader⟩
    have hfree := ne_reserved_of_eq_some headerTag?_reserved hheader
    rw [tag?_of_ne_reserved hfree, hstyle, hheader]

theorem tag?_eq_component_iff {name : ComponentName} {pairs : List (String × String)} :
    tag? styles body = some (.component name pairs) ↔
      styleTag? styles body = none ∧ componentTag? body = some (name, pairs) := by
  constructor
  · intro h
    cases classified_of_tag? h with
    | component hstyle hcomponent => exact ⟨hstyle, hcomponent⟩
  · rintro ⟨hstyle, hcomponent⟩
    have hfree := ne_reserved_of_eq_some componentTag?_reserved hcomponent
    rw [tag?_of_ne_reserved hfree, hstyle, headerTag?_of_componentTag? hcomponent, hcomponent]

end

/-! ## The identifier of a tag -/

/-- The letters and underscores that a tag has first. -/
def leadingWord (body : List Char) : List Char :=
  (body.dropWhile isBlank).takeWhile isIdentifierChar

theorem leadingWord_append {before word after : List Char} (hbefore : AllBlank before)
    (hne : word ≠ []) (hword : ∀ c ∈ word, isIdentifierChar c = true)
    (hafter : Stops isIdentifierChar after) : leadingWord (before ++ word ++ after) = word := by
  have hbegin : Stops isBlank (word ++ after) := stops_isBlank_append hne
    fun c hc => isBlank_eq_false_of_isIdentifierChar (hword c hc)
  rw [leadingWord, List.append_assoc, dropWhile_append_of_stops hbefore hbegin,
    takeWhile_append_of_stops hword hafter]

theorem AllBlank.stops {text : List Char} (h : AllBlank text) : Stops isIdentifierChar text := by
  cases text with
  | nil => exact stops_nil _
  | cons c text => exact stops_cons.mpr (isIdentifierChar_eq_false_of_isBlank (h c (by simp)))

theorem leadingWord_of_styleTag? {body : List Char} {name : String}
    (h : styleTag? styles body = some name) : leadingWord body = name.toList := by
  obtain ⟨hname, _, before, after, hbefore, hafter, rfl⟩ := styleTag?_eq_some_iff.mp h
  exact leadingWord_append hbefore hname.ne_nil (isName_iff.mp hname).2.1 hafter.stops

/-- A keyword has nothing beside it but blanks. -/
theorem mem_leadingWord_of_styleTag? {body : List Char} {name : String} {c : Char}
    (h : styleTag? styles body = some name) (hc : c ∈ body) (hblank : isBlank c = false) :
    c ∈ leadingWord body := by
  rw [leadingWord_of_styleTag? h]
  obtain ⟨_, _, before, after, hbefore, hafter, rfl⟩ := styleTag?_eq_some_iff.mp h
  rw [List.mem_append, List.mem_append] at hc
  rcases hc with (hc | hc) | hc
  · exact absurd hc (notMem_of_all hbefore hblank)
  · exact hc
  · exact absurd hc (notMem_of_all hafter hblank)

theorem leadingWord_of_componentTag? {body : List Char} {name : ComponentName}
    {pairs : List (String × String)} (h : componentTag? body = some (name, pairs)) :
    leadingWord body = name.identifier.toList := by
  obtain ⟨before, inner, hbefore, hinner, _, rfl⟩ := componentTag?_eq_some_iff.mp h
  have hname := isName_identifier name
  exact leadingWord_append hbefore hname.ne_nil (isName_iff.mp hname).2.1 hinner

theorem leadingWord_if {before inner : List Char} (hbefore : AllBlank before) :
    leadingWord (before ++ (['i', 'f'] ++ inner)) =
      ['i', 'f'] ++ inner.takeWhile isIdentifierChar := by
  have hbegin : Stops isBlank (['i', 'f'] ++ inner) := stops_cons.mpr (by decide)
  have hchars : ∀ c ∈ ['i', 'f'], isIdentifierChar c = true := List.all_eq_true.mp (by decide)
  rw [leadingWord, dropWhile_append_of_stops hbefore hbegin, List.takeWhile_append_of_pos hchars]

theorem leadingWord_of_headerTag? {body : List Char} {condition : Condition}
    (h : headerTag? body = some condition) : ∃ rest, leadingWord body = 'i' :: 'f' :: rest := by
  obtain ⟨before, between, name, _, _, hbefore, _, rfl⟩ := headerTag?_eq_some_iff.mp h
  rw [List.append_assoc, leadingWord_if hbefore]
  exact ⟨_, rfl⟩

/-! ## Reserved words as identifiers -/

/-- A tag with a reserved word in the place of its identifier, or in the place of the condition
after `if`. The tags of branches are these words alone; `if` and a reserved word without a space
may be a keyword. -/
def NamesReserved (styles : StyleTable) (body : List Char) : Prop :=
  ∃ before word after, word ∈ reservedWords ∧ AllBlank before ∧ Stops isIdentifierChar after ∧
    ((body = before ++ word.toList ++ after ∧ body ≠ word.toList) ∨
      ∃ between, AllBlank between ∧ (between = [] → styles.contains ("if" ++ word) = false) ∧
        body = before ++ (['i', 'f'] ++ (between ++ word.toList)) ++ after)

theorem isIdentifierChar_of_reserved : ∀ word ∈ reservedWords,
    ∀ c ∈ word.toList, isIdentifierChar c = true := by
  have hall : ∀ word ∈ reservedWords, word.toList.all isIdentifierChar = true := by decide
  intro word hword
  exact List.all_eq_true.mp (hall word hword)

theorem ne_nil_of_reserved : ∀ word ∈ reservedWords, word.toList ≠ [] := by
  decide

theorem leadingWord_reserved : ∀ word ∈ reservedWords, leadingWord word.toList = word.toList := by
  decide

/-- A tag whose identifier is a reserved word is the tag of a branch or none. -/
theorem tag?_eq_none_of_leadingWord {body : List Char} {word : String}
    (hword : word ∈ reservedWords) (hlead : leadingWord body = word.toList)
    (hbody : body ≠ word.toList) :
    tag? styles body = none := by
  have hother : ∀ other ∈ reservedWords, body ≠ other.toList := by
    rintro other hmem rfl
    exact hbody ((leadingWord_reserved other hmem).symm.trans hlead)
  refine tag?_eq_none_iff.mpr ⟨hother "end" (by decide), hother "else" (by decide), ?_, ?_, ?_⟩
  · apply Option.eq_none_iff_forall_ne_some.mpr
    intro name hstyle
    have hname : name = word :=
      String.toList_injective ((leadingWord_of_styleTag? hstyle).symm.trans hlead)
    subst hname
    exact (styleTag?_eq_some_iff.mp hstyle).1.2 hword
  · apply Option.eq_none_iff_forall_ne_some.mpr
    intro condition hheader
    obtain ⟨rest, hif⟩ := leadingWord_of_headerTag? hheader
    rw [hlead] at hif
    revert word
    simp [reservedWords]
  · apply Option.eq_none_iff_forall_ne_some.mpr
    rintro ⟨name, pairs⟩ hcomponent
    have hname : name.identifier = word :=
      String.toList_injective ((leadingWord_of_componentTag? hcomponent).symm.trans hlead)
    subst hname
    exact (isName_identifier name).2 hword

/-- What follows `if` and blanks is a condition or the tag is no header. -/
theorem headerTag?_eq_none_of_reserved {before between after : List Char} {word : String}
    (hword : word ∈ reservedWords) (hbefore : AllBlank before) (hbetween : AllBlank between)
    (hafter : Stops isIdentifierChar after) :
    headerTag? (before ++ (['i', 'f'] ++ (between ++ word.toList)) ++ after) = none := by
  have hchars := isIdentifierChar_of_reserved word hword
  have hif : Stops isBlank ('i' :: 'f' :: (between ++ (word.toList ++ after))) :=
    stops_cons.mpr (by decide)
  have hbegin : Stops isBlank (word.toList ++ after) :=
    stops_isBlank_append (ne_nil_of_reserved word hword)
      fun c hc => isBlank_eq_false_of_isIdentifierChar (hchars c hc)
  have hname : ¬ IsName (String.ofList (word.toList ++ after)) := by
    intro hname
    obtain ⟨_, hall, hfree⟩ := isName_iff.mp hname
    rw [String.toList_ofList] at hall
    cases after with
    | nil =>
        rw [List.append_nil, String.ofList_toList] at hfree
        exact hfree hword
    | cons c after =>
        have hc := hall c (by simp)
        rw [stops_cons.mp hafter] at hc
        cases hc
  have hdrop : (before ++ (['i', 'f'] ++ (between ++ word.toList)) ++ after).dropWhile isBlank =
      'i' :: 'f' :: (between ++ (word.toList ++ after)) := by
    rw [← dropWhile_append_of_stops hbefore hif]
    simp
  rw [headerTag?, hdrop]
  simp only [dropWhile_append_of_stops hbetween hbegin, if_neg hname]

/-- A keyword that a tag with a condition could be is `if` and the reserved word in one. -/
theorem styleTag?_eq_none_of_condition {before between after : List Char} {word : String}
    (hword : word ∈ reservedWords) (hbefore : AllBlank before) (hbetween : AllBlank between)
    (hafter : Stops isIdentifierChar after)
    (hstyle : between = [] → styles.contains ("if" ++ word) = false) :
    styleTag? styles (before ++ (['i', 'f'] ++ (between ++ word.toList)) ++ after) = none := by
  apply Option.eq_none_iff_forall_ne_some.mpr
  intro name hname
  have hlead := leadingWord_of_styleTag? hname
  rw [List.append_assoc, List.append_assoc, leadingWord_if hbefore, List.append_assoc] at hlead
  cases between with
  | nil =>
      rw [List.nil_append, takeWhile_append_of_stops (isIdentifierChar_of_reserved word hword)
        hafter] at hlead
      have heq : name = "if" ++ word := String.toList_injective (by simpa using hlead.symm)
      have hknown := (styleTag?_eq_some_iff.mp hname).2.1
      rw [heq, hstyle rfl] at hknown
      cases hknown
  | cons c between =>
      have hc := isIdentifierChar_eq_false_of_isBlank (hbetween c (by simp))
      have hif : name.toList = ['i', 'f'] := by simpa [hc] using hlead.symm
      -- Apart from its blanks the tag would be `if` alone, but it has the reserved word too.
      have hletter : ∀ word ∈ reservedWords, 'e' ∈ word.toList := by decide
      have hmem := mem_leadingWord_of_styleTag? (c := 'e') hname (by simp [hletter word hword])
        (by decide)
      rw [leadingWord_of_styleTag? hname, hif] at hmem
      simp at hmem

theorem tag?_eq_none_of_condition {before between after : List Char} {word : String}
    (hword : word ∈ reservedWords) (hbefore : AllBlank before) (hbetween : AllBlank between)
    (hafter : Stops isIdentifierChar after)
    (hstyle : between = [] → styles.contains ("if" ++ word) = false) :
    tag? styles (before ++ (['i', 'f'] ++ (between ++ word.toList)) ++ after) = none := by
  have hlead : ∃ rest, leadingWord (before ++ (['i', 'f'] ++ (between ++ word.toList)) ++ after) =
      'i' :: rest := by
    rw [List.append_assoc, List.append_assoc, leadingWord_if hbefore]
    exact ⟨_, rfl⟩
  have hbranch : ∀ other ∈ reservedWords,
      before ++ (['i', 'f'] ++ (between ++ word.toList)) ++ after ≠ other.toList := by
    intro other hother heq
    obtain ⟨rest, hlead⟩ := hlead
    rw [heq, leadingWord_reserved other hother] at hlead
    revert other
    simp [reservedWords]
  refine tag?_eq_none_iff.mpr ⟨hbranch "end" (by decide), hbranch "else" (by decide),
    styleTag?_eq_none_of_condition hword hbefore hbetween hafter hstyle,
    headerTag?_eq_none_of_reserved hword hbefore hbetween hafter, ?_⟩
  apply Option.eq_none_iff_forall_ne_some.mpr
  rintro ⟨name, pairs⟩ hcomponent
  obtain ⟨rest, hlead⟩ := hlead
  rw [leadingWord_of_componentTag? hcomponent] at hlead
  cases name <;> simp [ComponentName.identifier] at hlead

theorem tag?_eq_none_of_namesReserved {body : List Char} (h : NamesReserved styles body) :
    tag? styles body = none := by
  obtain ⟨before, word, after, hword, hbefore, hafter,
    ⟨rfl, hbody⟩ | ⟨between, hbetween, hstyle, rfl⟩⟩ := h
  · exact tag?_eq_none_of_leadingWord hword (leadingWord_append hbefore
      (ne_nil_of_reserved word hword) (isIdentifierChar_of_reserved word hword) hafter) hbody
  · exact tag?_eq_none_of_condition hword hbefore hbetween hafter hstyle

theorem NamesReserved.head?_ne {body : List Char} (h : NamesReserved styles body) :
    body.head? ≠ some '{' := by
  obtain ⟨before, word, after, hword, hbefore, _, hbody⟩ := h
  have hopening : '{' ∉ before := notMem_of_all hbefore (by decide)
  have hletter : ∀ word ∈ reservedWords, word.toList.head? = some 'e' := by decide
  have hfirst : word.toList.head? = some 'e' := hletter word hword
  rcases hbody with ⟨rfl, _⟩ | ⟨between, _, _, rfl⟩
  · cases before with
    | nil => simp [hfirst]
    | cons c before => simpa using fun hc : c = '{' => hopening (by simp [hc])
  · cases before with
    | nil => simp
    | cons c before => simpa using fun hc : c = '{' => hopening (by simp [hc])

end ShellPrompt.Template
