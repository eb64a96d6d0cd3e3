import ShellPrompt.Proofs.Parser.Reading
import ShellPrompt.Template.Grammar

/-! # The alternatives of the grammar

For every kind of token that holds no template of its own, the texts that are read as such a token;
and the same for the tags of conditionals. -/

namespace ShellPrompt.Template

open Text

/-! ## Characters -/

/-- White space, or nothing. -/
def AllBlank (text : List Char) : Prop := ∀ c ∈ text, isBlank c = true

/-- What can name something in a template: letters and underscores, no reserved word. -/
def IsName (name : String) : Prop := isIdentifier name = true ∧ name ∉ reservedWords

/-- The characters of an option's key. -/
def isKeyChar (c : Char) : Bool := c != '=' && c != '}' && !isBlank c

/-- The characters of an option's value. -/
def isValueChar (c : Char) : Bool := c != '}' && c != ' '

/-- What can be the key of an option. -/
def IsKey (key : String) : Prop := key ≠ "" ∧ ∀ c ∈ key.toList, isKeyChar c = true

/-- What can be the value of an option. -/
def IsValue (value : String) : Prop := value ≠ "" ∧ ∀ c ∈ value.toList, isValueChar c = true

theorem isName_iff {name : String} :
    IsName name ↔ name ≠ "" ∧ (∀ c ∈ name.toList, isIdentifierChar c = true) ∧
      name ∉ reservedWords := by
  simp [IsName, isIdentifier, and_assoc]

theorem notMem_of_all {test : Char → Bool} {text : List Char} {c : Char}
    (h : ∀ d ∈ text, test d = true) (hc : test c = false) : c ∉ text := by
  intro hmem
  rw [h c hmem] at hc
  cases hc

theorem isBlank_eq_false_of_isIdentifierChar {c : Char} (h : isIdentifierChar c = true) :
    isBlank c = false := by
  have hrange : 65 ≤ c.toNat ∧ c.toNat ≤ 122 := by
    have hsome : (c.isUpper = true ∨ c.isLower = true) ∨ c = '_' := by
      rw [isIdentifierChar, Bool.or_eq_true, beq_iff_eq] at h
      exact h.imp_left Bool.or_eq_true_iff.mp
    rcases hsome with (hupper | hlower) | rfl
    · obtain ⟨hmin, hmax⟩ := of_decide_eq_true hupper
      exact ⟨hmin, hmax.trans (by decide)⟩
    · obtain ⟨hmin, hmax⟩ := Bool.and_eq_true_iff.mp hlower
      exact ⟨le_trans (by decide) (of_decide_eq_true hmin), of_decide_eq_true hmax⟩
    · decide
  simp only [isBlank, blankRanges, CodeRanges.has, List.any_cons, List.any_nil, Bool.or_false,
    Bool.or_eq_false_iff, Bool.and_eq_false_iff, decide_eq_false_iff_not]
  omega

theorem isIdentifierChar_eq_false_of_isBlank {c : Char} (h : isBlank c = true) :
    isIdentifierChar c = false := by
  cases hc : isIdentifierChar c with
  | false => rfl
  | true => exact absurd h (by simp [isBlank_eq_false_of_isIdentifierChar hc])

/-- A text that goes on after blanks with something else stops a run of blanks. -/
theorem stops_isBlank_append {text rest : List Char} (hne : text ≠ [])
    (h : ∀ c ∈ text, isBlank c = false) : Stops isBlank (text ++ rest) := by
  cases text with
  | nil => exact absurd rfl hne
  | cons c text => exact stops_cons.mpr (h c (by simp))

theorem IsName.ne_nil {name : String} (h : IsName name) : name.toList ≠ [] := by
  simpa using (isName_iff.mp h).1

theorem IsName.not_blank {name : String} (h : IsName name) :
    ∀ c ∈ name.toList, isBlank c = false := fun c hc =>
  isBlank_eq_false_of_isIdentifierChar ((isName_iff.mp h).2.1 c hc)

theorem IsKey.ne_nil {key : String} (h : IsKey key) : key.toList ≠ [] := by
  simpa using h.1

theorem IsKey.not_blank {key : String} (h : IsKey key) : ∀ c ∈ key.toList, isBlank c = false := by
  intro c hc
  have hkey := h.2 c hc
  simp only [isKeyChar, Bool.and_eq_true, Bool.not_eq_true'] at hkey
  exact hkey.2

/-- Blanks and a closing brace end a name. -/
theorem stops_isIdentifierChar_closing {blank rest : List Char} (h : AllBlank blank) :
    Stops isIdentifierChar (blank ++ '}' :: rest) := by
  cases blank with
  | nil => exact stops_cons.mpr (by decide)
  | cons c blank => exact stops_cons.mpr (isIdentifierChar_eq_false_of_isBlank (h c (by simp)))

/-! ## Parts of tags -/

variable {start stop : Cursor}

theorem identifier_eq_some_iff {name : String} :
    identifier start = some (name, stop) ↔
      IsName name ∧ start.Reads name.toList stop ∧ Stops isIdentifierChar stop.rest := by
  rw [identifier, Parser.verify_eq_some_iff, Parser.takeWhile1_eq_some_iff, isName_iff]
  simp only [Bool.not_eq_true', List.contains_eq_mem, decide_eq_false_iff_not]
  constructor
  · rintro ⟨⟨hne, hreads, hchars, hstops⟩, hfree⟩
    exact ⟨⟨hne, hchars, hfree⟩, hreads, hstops⟩
  · rintro ⟨⟨hne, hchars, hfree⟩, hreads, hstops⟩
    exact ⟨⟨hne, hreads, hchars, hstops⟩, hfree⟩

theorem opening_eq_some_iff {value : String × String} :
    Parser.both (.tag "\x7b") blanks start = some (value, stop) ↔
      ∃ blank : String, value = ("\x7b", blank) ∧ AllBlank blank.toList ∧
        start.Reads ('{' :: blank.toList) stop ∧ Stops isBlank stop.rest := by
  obtain ⟨brace, blank⟩ := value
  rw [Parser.both_eq_some_iff]
  constructor
  · rintro ⟨middle, hopen, hrun⟩
    obtain ⟨rfl, hbrace⟩ := Parser.tag_eq_some_iff.mp hopen
    obtain ⟨hreads, hblank, hstops⟩ := Parser.takeWhile_eq_some_iff.mp hrun
    exact ⟨blank, rfl, hblank, hbrace.trans hreads, hstops⟩
  · rintro ⟨_, hvalue, hblank, hreads, hstops⟩
    obtain ⟨rfl, rfl⟩ := Prod.mk.inj hvalue
    obtain ⟨middle, hbrace, hreads⟩ := hreads.split_cons
    exact ⟨middle, Parser.tag_eq_some_iff.mpr ⟨rfl, hbrace⟩,
      Parser.takeWhile_eq_some_iff.mpr ⟨hreads, hblank, hstops⟩⟩

theorem closing_eq_some_iff {value : String × String} :
    Parser.both blanks (.tag "\x7d") start = some (value, stop) ↔
      ∃ blank : String, value = (blank, "\x7d") ∧ AllBlank blank.toList ∧
        start.Reads (blank.toList ++ ['}']) stop := by
  obtain ⟨blank, brace⟩ := value
  rw [Parser.both_eq_some_iff]
  constructor
  · rintro ⟨middle, hrun, hclose⟩
    obtain ⟨rfl, hbrace⟩ := Parser.tag_eq_some_iff.mp hclose
    obtain ⟨hreads, hblank, _⟩ := Parser.takeWhile_eq_some_iff.mp hrun
    exact ⟨blank, rfl, hblank, hreads.trans hbrace⟩
  · rintro ⟨_, hvalue, hblank, hreads⟩
    obtain ⟨rfl, rfl⟩ := Prod.mk.inj hvalue
    obtain ⟨middle, hreads, hbrace⟩ := hreads.split
    refine ⟨middle, Parser.takeWhile_eq_some_iff.mpr ⟨hreads, hblank, ?_⟩,
      Parser.tag_eq_some_iff.mpr ⟨rfl, hbrace⟩⟩
    rw [hbrace.1]
    exact stops_cons.mpr (by decide)

/-! ## Whole alternatives -/

theorem static_eq_some_iff {token : Token} :
    static start = some (token, stop) ↔
      ∃ run : String, token = .static run ∧ run ≠ "" ∧ start.Reads run.toList stop ∧
        (∀ c ∈ run.toList, c ≠ '{') ∧ ∀ c ∈ stop.rest.head?, c = '{' := by
  rw [static, Parser.map_eq_some_iff]
  constructor
  · rintro ⟨run, hrun, rfl⟩
    obtain ⟨hne, hreads, hchars, hstops⟩ := Parser.takeWhile1_eq_some_iff.mp hrun
    exact ⟨run, rfl, hne, hreads, by simpa using hchars, by simpa [Stops] using hstops⟩
  · rintro ⟨run, rfl, hne, hreads, hchars, hstops⟩
    refine ⟨run, Parser.takeWhile1_eq_some_iff.mpr ⟨hne, hreads, ?_, ?_⟩, rfl⟩
    · simpa using hchars
    · simpa [Stops] using hstops

theorem doubledBrace_eq_some_iff {token : Token} :
    doubledBrace start = some (token, stop) ↔
      token = .static "\x7b\x7b" ∧ start.Reads ['{', '{'] stop := by
  rw [doubledBrace, Parser.map_eq_some_iff]
  constructor
  · rintro ⟨literal, hliteral, rfl⟩
    obtain ⟨rfl, hreads⟩ := Parser.tag_eq_some_iff.mp hliteral
    exact ⟨rfl, hreads⟩
  · rintro ⟨rfl, hreads⟩
    exact ⟨_, Parser.tag_eq_some_iff.mpr ⟨rfl, hreads⟩, rfl⟩

theorem style_eq_some_iff {styles : StyleTable} {token : Token} :
    style styles start = some (token, stop) ↔
      ∃ before name after : String, token = .style name ∧ IsName name ∧
        styles.contains name = true ∧ AllBlank before.toList ∧ AllBlank after.toList ∧
        start.Reads ('{' :: (before.toList ++ name.toList ++ after.toList ++ ['}'])) stop := by
  rw [style, Parser.map_eq_some_iff]
  constructor
  · rintro ⟨name, hname, rfl⟩
    obtain ⟨middle, _, hname, hclosing⟩ := Parser.terminated_eq_some_iff.mp hname
    obtain ⟨_, inner, hopening, hname⟩ := Parser.preceded_eq_some_iff.mp hname
    obtain ⟨before, _, hbefore, hopening, _⟩ := opening_eq_some_iff.mp hopening
    obtain ⟨hname, hknown⟩ := Parser.verify_eq_some_iff.mp hname
    obtain ⟨hname, hinner, _⟩ := identifier_eq_some_iff.mp hname
    obtain ⟨after, _, hafter, hclosing⟩ := closing_eq_some_iff.mp hclosing
    refine ⟨before, name, after, rfl, hname, hknown, hbefore, hafter, ?_⟩
    simpa using (hopening.trans hinner).trans hclosing
  · rintro ⟨before, name, after, rfl, hname, hknown, hbefore, hafter, hreads⟩
    refine ⟨name, ?_, rfl⟩
    rw [List.append_assoc, List.append_assoc, ← List.cons_append] at hreads
    obtain ⟨inner, hopening, hreads⟩ := hreads.split
    obtain ⟨middle, hinner, hclosing⟩ := hreads.split
    have hend : Stops isIdentifierChar middle.rest := by
      rw [hclosing.1, List.append_assoc]
      exact stops_isIdentifierChar_closing hafter
    have hbegin : Stops isBlank inner.rest := by
      rw [hinner.1]
      exact stops_isBlank_append hname.ne_nil hname.not_blank
    refine Parser.terminated_eq_some_iff.mpr ⟨middle, _, ?_,
      closing_eq_some_iff.mpr ⟨after, rfl, hafter, hclosing⟩⟩
    exact Parser.preceded_eq_some_iff.mpr ⟨_, inner,
      opening_eq_some_iff.mpr ⟨before, rfl, hbefore, hopening, hbegin⟩,
      Parser.verify_eq_some_iff.mpr ⟨identifier_eq_some_iff.mpr ⟨hname, hinner, hend⟩, hknown⟩⟩

theorem ifStart_eq_some_iff {value : String × String × String} :
    ifStart start = some (value, stop) ↔
      ∃ blank : String, value = ("\x7b", blank, "if") ∧ AllBlank blank.toList ∧
        start.Reads ('{' :: (blank.toList ++ ['i', 'f'])) stop := by
  obtain ⟨brace, blank, word⟩ := value
  rw [ifStart, Parser.both_eq_some_iff]
  constructor
  · rintro ⟨first, hopen, hrest⟩
    obtain ⟨rfl, hbrace⟩ := Parser.tag_eq_some_iff.mp hopen
    obtain ⟨second, hrun, hword⟩ := Parser.both_eq_some_iff.mp hrest
    obtain ⟨hreads, hblank, _⟩ := Parser.takeWhile_eq_some_iff.mp hrun
    obtain ⟨rfl, hif⟩ := Parser.tag_eq_some_iff.mp hword
    exact ⟨blank, rfl, hblank, hbrace.trans (hreads.trans hif)⟩
  · rintro ⟨_, hvalue, hblank, hreads⟩
    simp only [Prod.mk.injEq] at hvalue
    obtain ⟨rfl, rfl, rfl⟩ := hvalue
    obtain ⟨first, hbrace, hreads⟩ := hreads.split_cons
    obtain ⟨second, hreads, hif⟩ := hreads.split
    refine ⟨first, Parser.tag_eq_some_iff.mpr ⟨rfl, hbrace⟩, Parser.both_eq_some_iff.mpr
      ⟨second, Parser.takeWhile_eq_some_iff.mpr ⟨hreads, hblank, ?_⟩,
        Parser.tag_eq_some_iff.mpr ⟨rfl, hif⟩⟩⟩
    rw [hif.1]
    exact stops_cons.mpr (by decide)

theorem ifCondition_eq_some_iff {condition : Condition} :
    ifCondition start = some (condition, stop) ↔
      ∃ before name : String, IsName name ∧ Condition.ofIdentifier? name = some condition ∧
        AllBlank before.toList ∧ start.Reads (before.toList ++ name.toList ++ ['}']) stop := by
  rw [ifCondition, Parser.terminated_eq_some_iff]
  constructor
  · rintro ⟨middle, _, hname, hclose⟩
    obtain ⟨before, inner, hrun, hname⟩ := Parser.preceded_eq_some_iff.mp hname
    obtain ⟨hopening, hbefore, _⟩ := Parser.takeWhile_eq_some_iff.mp hrun
    obtain ⟨name, hname, hcondition⟩ := Parser.filterMap_eq_some_iff.mp hname
    obtain ⟨hname, hinner, _⟩ := identifier_eq_some_iff.mp hname
    obtain ⟨rfl, hbrace⟩ := Parser.tag_eq_some_iff.mp hclose
    exact ⟨before, name, hname, hcondition, hbefore, (hopening.trans hinner).trans hbrace⟩
  · rintro ⟨before, name, hname, hcondition, hbefore, hreads⟩
    obtain ⟨middle, hreads, hbrace⟩ := hreads.split
    obtain ⟨inner, hopening, hinner⟩ := hreads.split
    have hend : Stops isIdentifierChar middle.rest := by
      rw [hbrace.1]
      exact stops_cons.mpr (by decide)
    have hbegin : Stops isBlank inner.rest := by
      rw [hinner.1]
      exact stops_isBlank_append hname.ne_nil hname.not_blank
    refine ⟨middle, _, ?_, Parser.tag_eq_some_iff.mpr ⟨rfl, hbrace⟩⟩
    exact Parser.preceded_eq_some_iff.mpr ⟨before, inner,
      Parser.takeWhile_eq_some_iff.mpr ⟨hopening, hbefore, hbegin⟩,
      Parser.filterMap_eq_some_iff.mpr
        ⟨name, identifier_eq_some_iff.mpr ⟨hname, hinner, hend⟩, hcondition⟩⟩

/-- The header of a conditional. -/
theorem header_eq_some_iff {condition : Condition} :
    Parser.preceded ifStart ifCondition start = some (condition, stop) ↔
      ∃ before between name : String, IsName name ∧ Condition.ofIdentifier? name = some condition ∧
        AllBlank before.toList ∧ AllBlank between.toList ∧
        start.Reads ('{' :: (before.toList ++ ['i', 'f'] ++ (between.toList ++ name.toList) ++
          ['}'])) stop := by
  rw [Parser.preceded_eq_some_iff]
  constructor
  · rintro ⟨_, middle, hif, hcondition⟩
    obtain ⟨before, _, hbefore, hif⟩ := ifStart_eq_some_iff.mp hif
    obtain ⟨between, name, hname, hcondition, hbetween, hreads⟩ :=
      ifCondition_eq_some_iff.mp hcondition
    refine ⟨before, between, name, hname, hcondition, hbefore, hbetween, ?_⟩
    simpa using hif.trans hreads
  · rintro ⟨before, between, name, hname, hcondition, hbefore, hbetween, hreads⟩
    rw [List.append_assoc, ← List.cons_append] at hreads
    obtain ⟨middle, hif, hreads⟩ := hreads.split
    exact ⟨_, middle, ifStart_eq_some_iff.mpr ⟨before, rfl, hbefore, hif⟩,
      ifCondition_eq_some_iff.mpr ⟨between, name, hname, hcondition, hbetween, hreads⟩⟩

theorem option_eq_some_iff {pair : String × String} :
    option start = some (pair, stop) ↔
      ∃ blank : String, blank ≠ "" ∧ AllBlank blank.toList ∧ IsKey pair.1 ∧ IsValue pair.2 ∧
        start.Reads (blank.toList ++ (pair.1.toList ++ '=' :: pair.2.toList)) stop ∧
        Stops isValueChar stop.rest := by
  obtain ⟨key, value⟩ := pair
  have hkeyTest : (fun c => !(c == '=' || c == '}') && !isBlank c) = isKeyChar := by
    funext c
    simp [isKeyChar, bne]
  have hvalueTest : (fun c => !(['}', ' '].contains c)) = isValueChar := by
    funext c
    rw [Bool.eq_iff_iff]
    simp [isValueChar]
  rw [option, Parser.preceded_eq_some_iff]
  constructor
  · rintro ⟨blank, first, hblank, hpair⟩
    obtain ⟨hne, hreads, hblank, _⟩ := Parser.takeWhile1_eq_some_iff.mp hblank
    obtain ⟨second, hkey, hvalue⟩ := Parser.both_eq_some_iff.mp hpair
    obtain ⟨third, _, hkey, hequals⟩ := Parser.terminated_eq_some_iff.mp hkey
    rw [optionKey, hkeyTest, Parser.takeWhile1_eq_some_iff] at hkey
    obtain ⟨_, hequals⟩ := Parser.tag_eq_some_iff.mp hequals
    rw [optionValue, Parser.noneOf, hvalueTest, Parser.takeWhile1_eq_some_iff] at hvalue
    refine ⟨blank, hne, hblank, ⟨hkey.1, hkey.2.2.1⟩, ⟨hvalue.1, hvalue.2.2.1⟩, ?_, hvalue.2.2.2⟩
    have hall := hreads.trans ((hkey.2.1.trans hequals).trans hvalue.2.1)
    simpa using hall
  · rintro ⟨blank, hne, hblank, hkey, hvalue, hreads, hstops⟩
    obtain ⟨first, hopening, hreads⟩ := hreads.split
    obtain ⟨second, hinner, hreads⟩ := hreads.split
    obtain ⟨third, hequals, hreads⟩ := hreads.split_cons
    have hbegin : Stops isBlank first.rest := by
      rw [hinner.1]
      exact stops_isBlank_append hkey.ne_nil hkey.not_blank
    have hend : Stops isKeyChar second.rest := by
      rw [hequals.1]
      exact stops_cons.mpr (by decide)
    refine ⟨blank, first, Parser.takeWhile1_eq_some_iff.mpr ⟨hne, hopening, hblank, hbegin⟩,
      Parser.both_eq_some_iff.mpr ⟨third, Parser.terminated_eq_some_iff.mpr
        ⟨second, _, ?_, Parser.tag_eq_some_iff.mpr ⟨rfl, hequals⟩⟩, ?_⟩⟩
    · rw [optionKey, hkeyTest, Parser.takeWhile1_eq_some_iff]
      exact ⟨hkey.1, hinner, hkey.2, hend⟩
    · rw [optionValue, Parser.noneOf, hvalueTest, Parser.takeWhile1_eq_some_iff]
      exact ⟨hvalue.1, hreads, hvalue.2, hstops⟩

theorem componentName_eq_some_iff {name : ComponentName} :
    componentName start = some (name, stop) ↔
      ∃ before word : String, IsName word ∧ ComponentName.ofIdentifier? word = some name ∧
        AllBlank before.toList ∧ start.Reads ('{' :: (before.toList ++ word.toList)) stop ∧
        Stops isIdentifierChar stop.rest := by
  rw [componentName, Parser.preceded_eq_some_iff]
  constructor
  · rintro ⟨_, inner, hopening, hword⟩
    obtain ⟨before, _, hbefore, hopening, _⟩ := opening_eq_some_iff.mp hopening
    obtain ⟨word, hword, hname⟩ := Parser.filterMap_eq_some_iff.mp hword
    obtain ⟨hword, hinner, hend⟩ := identifier_eq_some_iff.mp hword
    exact ⟨before, word, hword, hname, hbefore, hopening.trans hinner, hend⟩
  · rintro ⟨before, word, hword, hname, hbefore, hreads, hend⟩
    rw [← List.cons_append] at hreads
    obtain ⟨inner, hopening, hinner⟩ := hreads.split
    have hbegin : Stops isBlank inner.rest := by
      rw [hinner.1]
      exact stops_isBlank_append hword.ne_nil hword.not_blank
    exact ⟨_, inner, opening_eq_some_iff.mpr ⟨before, rfl, hbefore, hopening, hbegin⟩,
      Parser.filterMap_eq_some_iff.mpr
        ⟨word, identifier_eq_some_iff.mpr ⟨hword, hinner, hend⟩, hname⟩⟩

theorem component_eq_some_iff {token : Token} :
    component start = some (token, stop) ↔
      ∃ name pairs middle last, ∃ after : String,
        token = .component name (.ofPairs pairs) ∧ componentName start = some (name, middle) ∧
        Parser.Repeats option middle pairs last ∧ AllBlank after.toList ∧
        last.Reads (after.toList ++ ['}']) stop := by
  rw [component, Parser.map_eq_some_iff]
  constructor
  · rintro ⟨⟨name, pairs⟩, hboth, rfl⟩
    obtain ⟨middle, hname, hoptions⟩ := Parser.both_eq_some_iff.mp hboth
    obtain ⟨last, _, hpairs, hclosing⟩ := Parser.terminated_eq_some_iff.mp hoptions
    obtain ⟨after, _, hafter, hclosing⟩ := closing_eq_some_iff.mp hclosing
    exact ⟨name, pairs, middle, last, after, rfl, hname, Parser.many_eq_some_iff.mp hpairs,
      hafter, hclosing⟩
  · rintro ⟨name, pairs, middle, last, after, rfl, hname, hpairs, hafter, hclosing⟩
    exact ⟨(name, pairs), Parser.both_eq_some_iff.mpr ⟨middle, hname,
      Parser.terminated_eq_some_iff.mpr ⟨last, _, Parser.many_eq_some_iff.mpr hpairs,
        closing_eq_some_iff.mpr ⟨after, rfl, hafter, hclosing⟩⟩⟩, rfl⟩

end ShellPrompt.Template
