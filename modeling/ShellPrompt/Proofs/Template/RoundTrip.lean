import ShellPrompt.Proofs.Template.WellFormed
import ShellPrompt.Template.Printer

/-! # Writing and reading templates

A well-formed tree is written as a text whose lexemes are known in advance, token by token, and the
tree is derived from them. So the grammar reads it back. -/

namespace ShellPrompt.Template

open Text

variable {styles : StyleTable}

/-! ## The lexemes of a tree -/

mutual

/-- The lexemes that a token is written with. -/
def lexemesOf : Token → List Lexeme
  | .static text => [if text = "\x7b\x7b" then .escape else .text text]
  | .style name => [.style name]
  | .component name options => [.component name options.entries]
  | .conditional condition left right =>
    .header condition :: (lexemesOfAll left ++ (lexemesOfElse right ++ [.close]))
termination_by structural token => token

/-- The lexemes of tokens in order. -/
def lexemesOfAll : List Token → List Lexeme
  | [] => []
  | token :: rest => lexemesOf token ++ lexemesOfAll rest
termination_by structural tokens => tokens

/-- The lexemes of a second branch, if there is one. -/
def lexemesOfElse : Option (List Token) → List Lexeme
  | none => []
  | some tokens => .alternate :: lexemesOfAll tokens
termination_by structural tokens => tokens

end

mutual

theorem derives_lexemesOf : ∀ token, ValidToken styles token → Derives (lexemesOf token) [token]
  | .static text, _ => by
      refine .leaf ?_ .nil
      by_cases htext : text = "\x7b\x7b"
      · rw [if_pos htext, htext]
        rfl
      · rw [if_neg htext]
        rfl
  | .style name, _ => .leaf rfl .nil
  | .component name options, _ => by
      refine .leaf ?_ .nil
      rw [Lexeme.token?, Dictionary.ofPairs_entries]
  | .conditional condition left none, ⟨_, hleft, hvalid, _⟩ => by
      have hfirst := derives_lexemesOfAll left hvalid
      rw [lexemesOf, lexemesOfElse, List.nil_append]
      exact .single hleft hfirst .nil
  | .conditional condition left (some right), ⟨_, hleft, hvalid, hright, hvalid'⟩ => by
      have hfirst := derives_lexemesOfAll left hvalid
      have hsecond := derives_lexemesOfAll right hvalid'
      rw [lexemesOf, lexemesOfElse, List.cons_append]
      exact .double hleft hright hfirst hsecond .nil

theorem derives_lexemesOfAll :
    ∀ tokens, ValidTokens styles tokens → Derives (lexemesOfAll tokens) tokens
  | [], _ => .nil
  | token :: rest, ⟨hvalid, _, hrest⟩ =>
      (derives_lexemesOf token hvalid).append (derives_lexemesOfAll rest hrest)

end

/-! ## The lexemes of single tokens -/

theorem styleTag?_name {name : String} (hname : IsName name)
    (hknown : styles.contains name = true) :
    styleTag? styles name.toList = some name :=
  styleTag?_eq_some_iff.mpr
    ⟨hname, hknown, [], [], by simp [AllBlank], by simp [AllBlank], by simp⟩

/-- A tag with a character that is neither a blank nor part of a name is no keyword. -/
theorem styleTag?_eq_none_of_mem {body : List Char} {c : Char} (hc : c ∈ body)
    (hblank : isBlank c = false) (hname : isIdentifierChar c = false) :
    styleTag? styles body = none := by
  apply Option.eq_none_iff_forall_ne_some.mpr
  intro name hstyle
  have hmem := List.mem_takeWhile_imp (mem_leadingWord_of_styleTag? hstyle hc hblank)
  rw [hname] at hmem
  cases hmem

theorem longestPairs_of_some {text rest : List Char} {pair : String × String}
    (h : firstPair? text = some (pair, rest)) :
    longestPairs text = (pair :: (longestPairs rest).1, (longestPairs rest).2) := by
  rw [longestPairs]
  split
  · rename_i hpair
    obtain ⟨rfl, rfl⟩ := Prod.mk.inj (Option.some.inj (h.symm.trans hpair))
    rfl
  · rename_i hpair
    cases h.symm.trans hpair

/-- The written form of options. -/
def pairChars (pairs : List (String × String)) : List Char :=
  pairs.flatMap fun (key, value) => ' ' :: key.toList ++ '=' :: value.toList

theorem stops_pairChars (test : Char → Bool) (htest : test ' ' = false)
    (pairs : List (String × String)) : Stops test (pairChars pairs) := by
  cases pairs with
  | nil => exact stops_nil test
  | cons pair pairs => exact stops_cons.mpr htest

theorem longestPairs_pairChars {pairs : List (String × String)}
    (h : ∀ pair ∈ pairs, IsKey pair.1 ∧ IsValue pair.2) :
    longestPairs (pairChars pairs) = (pairs, []) := by
  induction pairs with
  | nil =>
      rw [longestPairs]
      rfl
  | cons pair pairs ih =>
      obtain ⟨⟨hkey, hvalue⟩, hrest⟩ := List.forall_mem_cons.mp h
      have hfirst : firstPair? (pairChars (pair :: pairs)) = some (pair, pairChars pairs) := by
        refine firstPair?_eq_some_iff.mpr ⟨" ", by decide, ?_, hkey, hvalue, ?_, ?_⟩
        · exact List.all_eq_true.mp (by decide)
        · simp [pairChars]
        · exact stops_pairChars isValueChar (by decide) pairs
      rw [longestPairs_of_some hfirst, ih hrest]

theorem closing_notMem_pairChars {pairs : List (String × String)}
    (h : ∀ pair ∈ pairs, IsKey pair.1 ∧ IsValue pair.2) : '}' ∉ pairChars pairs := by
  intro hmem
  obtain ⟨pair, hpair, hmem⟩ := List.mem_flatMap.mp hmem
  obtain ⟨hkey, hvalue⟩ := h pair hpair
  simp [hkey.closing_notMem, hvalue.closing_notMem] at hmem

/-- The tag of a component is no keyword: with options it has an equals sign, and without them its
name is not in the table. -/
theorem styleTag?_component {name : ComponentName} {pairs : List (String × String)}
    (h : pairs = [] → styles.contains name.identifier = false) :
    styleTag? styles (name.identifier.toList ++ pairChars pairs) = none := by
  cases pairs with
  | nil =>
      apply Option.eq_none_iff_forall_ne_some.mpr
      intro other hstyle
      rw [pairChars, List.flatMap_nil, List.append_nil] at hstyle
      have hchars := (isName_iff.mp (isName_identifier name)).2.1
      have hblank : AllBlank [] := by simp [AllBlank]
      have hlead := leadingWord_append hblank (isName_identifier name).ne_nil hchars (stops_nil _)
      rw [List.nil_append, List.append_nil, leadingWord_of_styleTag? hstyle] at hlead
      have hknown := (styleTag?_eq_some_iff.mp hstyle).2.1
      rw [String.toList_injective hlead, h rfl] at hknown
      cases hknown
  | cons pair pairs =>
      exact styleTag?_eq_none_of_mem (c := '=') (by simp [pairChars]) (by decide) (by decide)

theorem componentTag?_pairChars {name : ComponentName} {pairs : List (String × String)}
    (h : ∀ pair ∈ pairs, IsKey pair.1 ∧ IsValue pair.2) :
    componentTag? (name.identifier.toList ++ pairChars pairs) = some (name, pairs) := by
  have hlongest := longestPairs_pairChars h
  refine componentTag?_eq_some_iff.mpr ⟨[], pairChars pairs, by simp [AllBlank],
    stops_pairChars isIdentifierChar (by decide) pairs, pairs?_eq_some_iff.mpr ⟨?_, ?_⟩, rfl⟩
  · rw [hlongest]
  · rw [hlongest]
    simp [AllBlank]

theorem toList_identifier_environmentHas (name : String) :
    (Condition.environmentHas name).identifier.toList =
      Condition.environmentMark.toList ++ name.toList :=
  String.toList_append

theorem isName_identifier_condition {condition : Condition} (h : IsCondition condition) :
    IsName condition.identifier := by
  cases condition with
  | lastCommandSucceeded => decide
  | environmentHas name =>
      simp only [IsCondition, isIdentifier, Bool.and_eq_true, List.all_eq_true] at h
      have hmark : ∀ c ∈ Condition.environmentMark.toList, isIdentifierChar c = true :=
        List.all_eq_true.mp (by decide)
      have hother : ∀ word : String, word.toList.take Condition.environmentMark.toList.length ≠
          Condition.environmentMark.toList → (Condition.environmentHas name).identifier ≠ word := by
        rintro _ hword rfl
        rw [toList_identifier_environmentHas] at hword
        exact hword List.take_left
      refine isName_iff.mpr ⟨hother "" (by decide), ?_, ?_⟩
      · intro c hc
        rw [toList_identifier_environmentHas, List.mem_append] at hc
        exact hc.elim (hmark c) (h.2 c)
      · intro hmem
        rcases List.mem_cons.mp hmem with hend | hmem
        · exact hother "end" (by decide) hend
        · exact hother "else" (by decide) (List.mem_singleton.mp hmem)

theorem ofIdentifier?_identifier {condition : Condition} (h : IsCondition condition) :
    Condition.ofIdentifier? condition.identifier = some condition := by
  cases condition with
  | lastCommandSucceeded => decide
  | environmentHas name =>
      simp only [IsCondition, isIdentifier, Bool.and_eq_true, decide_eq_true_eq] at h
      have hother :
          (Condition.environmentHas name).identifier ≠ Condition.lastCommandIdentifier := by
        intro heq
        have hchars := congrArg (fun text => text.toList.head?) heq
        simp [Condition.identifier, Condition.environmentMark,
          Condition.lastCommandIdentifier] at hchars
      have hlength : 0 < name.toList.length := by
        rw [List.length_pos_iff]
        simpa using h.1
      rw [Condition.ofIdentifier?, if_neg hother]
      dsimp only
      rw [toList_identifier_environmentHas, if_pos, List.drop_left, String.ofList_toList]
      refine ⟨List.isPrefixOf_iff_prefix.mpr (List.prefix_append _ _), ?_⟩
      rw [List.length_append]
      omega

theorem headerTag?_identifier {condition : Condition} (h : IsCondition condition) :
    headerTag? ("if ".toList ++ condition.identifier.toList) = some condition :=
  headerTag?_eq_some_iff.mpr ⟨[], [' '], condition.identifier, isName_identifier_condition h,
    ofIdentifier?_identifier h, by simp [AllBlank], List.all_eq_true.mp (by decide), rfl⟩

theorem styleTag?_header (condition : Condition) :
    styleTag? styles ("if ".toList ++ condition.identifier.toList) = none := by
  apply Option.eq_none_iff_forall_ne_some.mpr
  intro name hstyle
  have hunderscore : '_' ∈ "if ".toList ++ condition.identifier.toList := by
    cases condition with
    | lastCommandSucceeded => decide
    | environmentHas name =>
        rw [toList_identifier_environmentHas]
        simp [Condition.environmentMark]
  have hmem := mem_leadingWord_of_styleTag? hstyle hunderscore (by decide)
  have hlead : leadingWord ("if ".toList ++ condition.identifier.toList) = ['i', 'f'] := rfl
  rw [hlead] at hmem
  simp at hmem

/-! ## Scanning what is written -/

section

variable {rest : List Char}

theorem next?_style {name : String} (hname : IsName name) (hknown : styles.contains name = true) :
    next? styles (Token.chars (.style name) ++ rest) = some (.style name, rest) := by
  have hhead : name.toList.head? ≠ some '{' := by
    intro hhead
    have hmem := List.mem_of_head? hhead
    exact notMem_of_all (isName_iff.mp hname).2.1 (by decide) hmem
  have htag := tag?_eq_style_iff.mpr (styleTag?_name hname hknown)
  rw [← next?_of_tag? htag hhead hname.closing_notMem, Token.chars_style]
  simp

theorem next?_component {name : ComponentName} {options : Options}
    (h : ValidToken styles (.component name options)) :
    next? styles (Token.chars (.component name options) ++ rest) =
      some (.component name options.entries, rest) := by
  obtain ⟨hpairs, hnil⟩ := h
  have hname := isName_identifier name
  have hhead : (name.identifier.toList ++ pairChars options.entries).head? ≠ some '{' := by
    cases name <;> simp [ComponentName.identifier]
  have hclosing : '}' ∉ name.identifier.toList ++ pairChars options.entries := by
    simp [hname.closing_notMem, closing_notMem_pairChars hpairs]
  have htag := tag?_eq_component_iff.mpr
    ⟨styleTag?_component hnil, componentTag?_pairChars hpairs⟩
  rw [← next?_of_tag? htag hhead hclosing, Token.chars_component]
  simp [Token.optionChars, pairChars]

theorem next?_header {condition : Condition} (h : IsCondition condition) :
    next? styles ("\x7bif ".toList ++ condition.identifier.toList ++ ['}'] ++ rest) =
      some (.header condition, rest) := by
  have hclosing : '}' ∉ "if ".toList ++ condition.identifier.toList := by
    simp [(isName_identifier_condition h).closing_notMem]
  have hhead : ("if ".toList ++ condition.identifier.toList).head? ≠ some '{' := by simp
  have htag : tag? styles ("if ".toList ++ condition.identifier.toList) =
      some (.header condition) :=
    tag?_eq_header_iff.mpr ⟨styleTag?_header condition, headerTag?_identifier h⟩
  rw [← next?_of_tag? htag hhead hclosing]
  simp

theorem next?_static {text : String} (h : ValidToken styles (.static text))
    (hrest : IsRun (.static text) → ∀ c ∈ rest.head?, c = '{') :
    next? styles (text.toList ++ rest) =
      some (if text = "\x7b\x7b" then .escape else .text text, rest) := by
  by_cases htext : text = "\x7b\x7b"
  · subst htext
    rfl
  · obtain ⟨hne, hopening⟩ := h.resolve_left htext
    have hrun : ∀ c ∈ text.toList, c ≠ '{' := by
      rintro c hc rfl
      exact hopening hc
    rw [next?_run (by simpa using hne) hrun (hrest ⟨hne, hopening⟩), if_neg htext,
      String.ofList_toList]

/-- What is no run begins with a brace. -/
theorem head?_chars {token : Token} (h : ValidToken styles token) (hrun : ¬ IsRun token) :
    token.chars.head? = some '{' := by
  cases token with
  | static text =>
      obtain rfl := h.resolve_right hrun
      rfl
  | style name => rfl
  | component name options => rfl
  | conditional condition left right => rfl

/-- Behind a run comes a brace or nothing. -/
theorem head?_charsAll {token : Token} {tokens : List Token}
    (h : ValidTokens styles (token :: tokens)) (hrest : ∀ c ∈ rest.head?, c = '{')
    (hrun : IsRun token) : ∀ c ∈ (Token.charsAll tokens ++ rest).head?, c = '{' := by
  obtain ⟨_, hnext, hvalid⟩ := h
  cases tokens with
  | nil => exact hrest
  | cons next tokens =>
      have hbrace := head?_chars hvalid.1 fun hrun' => hnext next rfl ⟨hrun, hrun'⟩
      rw [Token.charsAll_cons, List.append_assoc, List.head?_append, hbrace]
      simp

end

mutual

theorem scans_chars : ∀ (token : Token) (rest : List Char), ValidToken styles token →
    (IsRun token → ∀ c ∈ rest.head?, c = '{') →
    Scans styles (token.chars ++ rest) (lexemesOf token) rest
  | .static text, rest, hvalid, hrest => .step (next?_static hvalid hrest) (.done rest)
  | .style name, rest, ⟨hname, hknown⟩, _ => .step (next?_style hname hknown) (.done rest)
  | .component name options, rest, hvalid, _ => .step (next?_component hvalid) (.done rest)
  | .conditional condition left right, rest, ⟨hcondition, _, hleft, hright⟩, _ => by
      have hclose : next? styles ("\x7bend\x7d".toList ++ rest) = some (.close, rest) :=
        (next?_eq_close_iff styles).mpr rfl
      have hend : ∀ c ∈ ("\x7bend\x7d".toList ++ rest).head?, c = '{' := by simp
      have hsecond := scans_charsElse right ("\x7bend\x7d".toList ++ rest) hright hend
      have hfirst := scans_charsAll left
        (Token.charsElse right ++ ("\x7bend\x7d".toList ++ rest)) hleft (by
          cases right with
          | none => exact hend
          | some tokens => simp [Token.charsElse_some])
      have htext : (Token.conditional condition left right).chars ++ rest =
          "\x7bif ".toList ++ condition.identifier.toList ++ ['}'] ++ (Token.charsAll left ++
            (Token.charsElse right ++ ("\x7bend\x7d".toList ++ rest))) := by
        simp only [Token.chars_conditional, List.append_assoc]
      rw [htext, lexemesOf]
      exact .step (next?_header hcondition)
        (hfirst.append (hsecond.append (.step hclose (.done rest))))

theorem scans_charsAll : ∀ (tokens : List Token) (rest : List Char), ValidTokens styles tokens →
    (∀ c ∈ rest.head?, c = '{') →
    Scans styles (Token.charsAll tokens ++ rest) (lexemesOfAll tokens) rest
  | [], rest, _, _ => .done rest
  | token :: tokens, rest, hvalid, hrest => by
      have hfirst := scans_chars token (Token.charsAll tokens ++ rest) hvalid.1
        (head?_charsAll hvalid hrest)
      have hsecond := scans_charsAll tokens rest hvalid.2.2 hrest
      rw [Token.charsAll_cons, List.append_assoc, lexemesOfAll]
      exact hfirst.append hsecond

theorem scans_charsElse : ∀ (right : Option (List Token)) (rest : List Char),
    ValidElse styles right → (∀ c ∈ rest.head?, c = '{') →
    Scans styles (Token.charsElse right ++ rest) (lexemesOfElse right) rest
  | none, rest, _, _ => .done rest
  | some tokens, rest, ⟨_, hvalid⟩, hrest => by
      have halternate : next? styles ("\x7belse\x7d".toList ++ (Token.charsAll tokens ++ rest)) =
          some (.alternate, Token.charsAll tokens ++ rest) :=
        (next?_eq_alternate_iff styles).mpr rfl
      rw [Token.charsElse_some, List.append_assoc, lexemesOfElse]
      exact .step halternate (scans_charsAll tokens rest hvalid hrest)

end

/-- A well-formed tree is read from what it is written as. -/
theorem parse_serialize {tree : List Token} (h : WellFormed styles tree) :
    parse styles (Token.serialize tree) = .ok tree := by
  refine parse_eq_ok_iff_derives.mpr
    ⟨lexemesOfAll tree, ?_, h.1, derives_lexemesOfAll tree h.2⟩
  have hscans := scans_charsAll tree [] h.2 (by simp)
  rw [List.append_nil] at hscans
  rw [scan_eq_some_iff, Token.serialize, String.toList_ofList]
  exact hscans

/-- The grammar reads the well-formed trees and no others. The written form of a tree is read as
that tree exactly if it is well-formed, also where options may change places. So reading, writing
and reading again changes nothing. -/
theorem parse_serialize_iff_wellFormed (styles : StyleTable) :
    (∀ tree, (∃ template, parse styles template = .ok tree) ↔ WellFormed styles tree) ∧
    (∀ tree, parse styles (Token.serialize tree) = .ok tree ↔ WellFormed styles tree) ∧
    (∀ tree, (∃ read, parse styles (Token.serialize tree) = .ok read ∧ SameTokens read tree) ↔
      WellFormed styles tree) ∧
    ∀ template tree, parse styles template = .ok tree →
      parse styles (Token.serialize tree) = .ok tree := by
  refine ⟨?_, ?_, ?_, ?_⟩
  · intro tree
    constructor
    · rintro ⟨template, h⟩
      exact wellFormed_of_parse h
    · intro h
      exact ⟨_, parse_serialize h⟩
  · exact fun tree => ⟨wellFormed_of_parse, parse_serialize⟩
  · intro tree
    constructor
    · rintro ⟨read, h, hsame⟩
      exact hsame.wellFormed (wellFormed_of_parse h)
    · intro h
      exact ⟨tree, parse_serialize h, SameTokens.refl tree⟩
  · exact fun template tree h => parse_serialize (wellFormed_of_parse h)

end ShellPrompt.Template
