import Mathlib.Data.List.Chain
import ShellPrompt.Proofs.Dictionary
import ShellPrompt.Proofs.Template.Nesting

/-! # Well-formed trees

The trees that templates are read as: texts without braces or a doubled brace, never two texts that
would be one, names that their alternative of the grammar knows, and no list without tokens. -/

namespace ShellPrompt.Template

variable {styles : StyleTable}

/-- A text that is read as one run. -/
def IsPlain (text : String) : Prop := text ≠ "" ∧ '{' ∉ text.toList

/-- A condition on a variable has an identifier if its name has letters and underscores only. -/
def IsCondition : Condition → Prop
  | .lastCommandSucceeded => True
  | .environmentHas name => isIdentifier name = true

/-- A token that is a run of its own. Two of them in a row are written as one. -/
def IsRun : Token → Prop
  | .static text => IsPlain text
  | _ => False

mutual

/-- What a token has to be by itself. -/
def ValidToken (styles : StyleTable) : Token → Prop
  | .static text => text = "\x7b\x7b" ∨ IsPlain text
  | .style name => IsName name ∧ styles.contains name = true
  | .component name options =>
    (∀ pair ∈ options.entries, IsKey pair.1 ∧ IsValue pair.2) ∧
      (options.entries = [] → styles.contains name.identifier = false)
  | .conditional condition left right =>
    IsCondition condition ∧ left ≠ [] ∧ ValidTokens styles left ∧ ValidElse styles right
termination_by structural token => token

/-- What the tokens of a list have to be, and that no two runs stand side by side. -/
def ValidTokens (styles : StyleTable) : List Token → Prop
  | [] => True
  | token :: rest =>
    ValidToken styles token ∧ (∀ next ∈ rest.head?, ¬ (IsRun token ∧ IsRun next)) ∧
      ValidTokens styles rest
termination_by structural tokens => tokens

/-- What a second branch has to be, if there is one. -/
def ValidElse (styles : StyleTable) : Option (List Token) → Prop
  | none => True
  | some tokens => tokens ≠ [] ∧ ValidTokens styles tokens
termination_by structural tokens => tokens

end

/-- A tree that is written as a template and read from it again. -/
def WellFormed (styles : StyleTable) (tree : List Token) : Prop :=
  tree ≠ [] ∧ ValidTokens styles tree

/-! ## The order of options -/

mutual

/-- Tokens that differ in the order of options at most. -/
def SameToken : Token → Token → Prop
  | .static first, .static second => first = second
  | .style first, .style second => first = second
  | .component name options, .component other others =>
    name = other ∧ ∀ key, options.get? key = others.get? key
  | .conditional condition left right, .conditional other first second =>
    condition = other ∧ SameTokens left first ∧ SameElse right second
  | _, _ => False
termination_by structural token => token

/-- Lists of such tokens. -/
def SameTokens : List Token → List Token → Prop
  | [], [] => True
  | token :: rest, other :: others => SameToken token other ∧ SameTokens rest others
  | _, _ => False
termination_by structural tokens => tokens

/-- Second branches of such tokens. -/
def SameElse : Option (List Token) → Option (List Token) → Prop
  | none, none => True
  | some tokens, some others => SameTokens tokens others
  | _, _ => False
termination_by structural tokens => tokens

end

mutual

theorem SameToken.refl : ∀ token, SameToken token token
  | .static _ => rfl
  | .style _ => rfl
  | .component _ _ => ⟨rfl, fun _ => rfl⟩
  | .conditional _ left right => ⟨rfl, SameTokens.refl left, SameElse.refl right⟩

theorem SameTokens.refl : ∀ tokens, SameTokens tokens tokens
  | [] => trivial
  | token :: rest => ⟨SameToken.refl token, SameTokens.refl rest⟩

theorem SameElse.refl : ∀ tokens, SameElse tokens tokens
  | none => trivial
  | some tokens => SameTokens.refl tokens

end

theorem SameToken.isRun {token other : Token} (h : SameToken token other) (hrun : IsRun other) :
    IsRun token := by
  cases other <;> try exact hrun.elim
  cases token <;> try exact h.elim
  rwa [show _ = _ from h]

theorem SameTokens.ne_nil {tokens others : List Token} (h : SameTokens tokens others)
    (hne : tokens ≠ []) : others ≠ [] := by
  rintro rfl
  cases tokens with
  | nil => exact hne rfl
  | cons token rest => exact h

mutual

theorem SameToken.valid : ∀ {token other}, SameToken token other → ValidToken styles token →
    ValidToken styles other
  | .static _, .static _, rfl, hvalid => hvalid
  | .style _, .style _, rfl, hvalid => hvalid
  | .component name options, .component _ others, ⟨rfl, hoptions⟩, hvalid => by
      have hmem : ∀ pair, pair ∈ others.entries ↔ pair ∈ options.entries := by
        rintro ⟨key, value⟩
        rw [← Dictionary.get?_eq_some_iff, ← Dictionary.get?_eq_some_iff, hoptions]
      refine ⟨fun pair hpair => hvalid.1 pair ((hmem pair).mp hpair), fun hnil => hvalid.2 ?_⟩
      rw [List.eq_nil_iff_forall_not_mem] at hnil ⊢
      exact fun pair hpair => hnil pair ((hmem pair).mpr hpair)
  | .conditional _ _ _, .conditional _ _ _, ⟨rfl, hleft, hright⟩,
      ⟨hcondition, hne, hvalid, helse⟩ =>
      ⟨hcondition, hleft.ne_nil hne, SameTokens.valid hleft hvalid, SameElse.valid hright helse⟩

theorem SameTokens.valid : ∀ {tokens others}, SameTokens tokens others →
    ValidTokens styles tokens → ValidTokens styles others
  | [], [], _, _ => trivial
  | token :: tokens, other :: others, ⟨htoken, hrest⟩, ⟨hvalid, hnext, htail⟩ => by
      refine ⟨SameToken.valid htoken hvalid, ?_, SameTokens.valid hrest htail⟩
      rintro next hmem ⟨hrun, hrun'⟩
      obtain ⟨others, rfl⟩ := List.head?_eq_some_iff.mp hmem
      cases tokens with
      | nil => exact hrest
      | cons second tokens => exact hnext second rfl ⟨htoken.isRun hrun, hrest.1.isRun hrun'⟩

theorem SameElse.valid : ∀ {tokens others}, SameElse tokens others →
    ValidElse styles tokens → ValidElse styles others
  | none, none, _, _ => trivial
  | some _, some _, h, ⟨hne, hvalid⟩ => ⟨h.ne_nil hne, SameTokens.valid h hvalid⟩

end

/-- The order of options has no part in whether a tree is well-formed. -/
theorem SameTokens.wellFormed {tokens others : List Token} (h : SameTokens tokens others)
    (hwell : WellFormed styles tokens) : WellFormed styles others :=
  ⟨h.ne_nil hwell.1, h.valid hwell.2⟩

/-! ## Lexemes of templates -/

/-- What a scanned lexeme is known to be. -/
def Lexeme.Valid (styles : StyleTable) : Lexeme → Prop
  | text run => IsPlain run
  | style name => IsName name ∧ styles.contains name = true
  | component name pairs => (∀ pair ∈ pairs, IsKey pair.1 ∧ IsValue pair.2) ∧
      (pairs = [] → styles.contains name.identifier = false)
  | header condition => IsCondition condition
  | escape | alternate | close => True

/-- Two texts in a row, which a scanner never gives. -/
def Lexeme.Touches : Lexeme → Lexeme → Prop
  | text _, text _ => True
  | _, _ => False

theorem isCondition_of_ofIdentifier? {name : String} {condition : Condition} (hname : IsName name)
    (h : Condition.ofIdentifier? name = some condition) : IsCondition condition := by
  unfold Condition.ofIdentifier? at h
  split at h
  · obtain rfl := Option.some.inj h
    trivial
  · dsimp only at h
    split at h
    · rename_i hmark
      obtain rfl := Option.some.inj h
      have hchars := (isName_iff.mp hname).2.1
      have hne : name.toList.drop Condition.environmentMark.toList.length ≠ [] := by
        rw [ne_eq, List.drop_eq_nil_iff]
        omega
      simp only [IsCondition, isIdentifier, Bool.and_eq_true, decide_eq_true_eq, List.all_eq_true,
        String.toList_ofList]
      refine ⟨?_, fun c hc => hchars c (List.mem_of_mem_drop hc)⟩
      simpa using hne
    · cases h

theorem valid_longestPairs (text : List Char) :
    ∀ pair ∈ (longestPairs text).1, IsKey pair.1 ∧ IsValue pair.2 := by
  fun_induction longestPairs text with
  | case1 text pair rest hpair pairs last hlongest ih =>
      obtain ⟨_, _, _, hkey, hvalue, _, _⟩ := firstPair?_eq_some_iff.mp hpair
      rw [hlongest] at ih
      exact List.forall_mem_cons.mpr ⟨⟨hkey, hvalue⟩, ih⟩
  | case2 text hpair => simp

theorem longestPairs_eq_of_nil {text : List Char} (h : (longestPairs text).1 = []) :
    (longestPairs text).2 = text := by
  rw [longestPairs] at h ⊢
  split
  · rename_i pair rest hpair
    rw [hpair] at h
    simp at h
  · rfl

/-- A component without options whose name is a keyword is read as that keyword. -/
theorem styleTag?_of_componentTag? {body : List Char} {name : ComponentName}
    (h : componentTag? body = some (name, [])) (hknown : styles.contains name.identifier = true) :
    styleTag? styles body = some name.identifier := by
  obtain ⟨before, inner, hbefore, _, hpairs, rfl⟩ := componentTag?_eq_some_iff.mp h
  obtain ⟨hnil, hblank⟩ := pairs?_eq_some_iff.mp hpairs
  rw [longestPairs_eq_of_nil hnil] at hblank
  exact styleTag?_eq_some_iff.mpr
    ⟨isName_identifier name, hknown, before, inner, hbefore, hblank, rfl⟩

theorem valid_of_tag? {body : List Char} {lexeme : Lexeme} (h : tag? styles body = some lexeme) :
    lexeme.Valid styles := by
  cases lexeme with
  | text run => exact absurd h (tag?_ne_text run)
  | escape => trivial
  | alternate => trivial
  | close => trivial
  | style name =>
      obtain ⟨hname, hknown, _⟩ := styleTag?_eq_some_iff.mp (tag?_eq_style_iff.mp h)
      exact ⟨hname, hknown⟩
  | header condition =>
      obtain ⟨_, hheader⟩ := tag?_eq_header_iff.mp h
      obtain ⟨_, _, name, hname, hcondition, _⟩ := headerTag?_eq_some_iff.mp hheader
      exact isCondition_of_ofIdentifier? hname hcondition
  | component name pairs =>
      obtain ⟨hstyle, hcomponent⟩ := tag?_eq_component_iff.mp h
      obtain ⟨_, inner, _, _, hpairs, _⟩ := componentTag?_eq_some_iff.mp hcomponent
      obtain ⟨rfl, _⟩ := pairs?_eq_some_iff.mp hpairs
      refine ⟨valid_longestPairs inner, fun hnil => ?_⟩
      rw [hnil] at hcomponent
      by_contra hknown
      rw [styleTag?_of_componentTag? hcomponent (by simpa using hknown)] at hstyle
      cases hstyle

theorem valid_of_next? {text rest : List Char} {lexeme : Lexeme}
    (h : next? styles text = some (lexeme, rest)) : lexeme.Valid styles := by
  cases begins_of_next? h with
  | text hne hrun _ =>
      refine ⟨by simpa using hne, fun hmem => ?_⟩
      rw [String.toList_ofList] at hmem
      exact hrun _ hmem rfl
  | escape => trivial
  | tag _ _ htag => exact valid_of_tag? htag

/-- A text is scanned as far as the next brace. -/
theorem not_touches_of_next? {text middle rest : List Char} {first second : Lexeme}
    (h₁ : next? styles text = some (first, middle))
    (h₂ : next? styles middle = some (second, rest)) : ¬ first.Touches second := by
  intro htouches
  cases first <;> cases second <;> try exact htouches
  cases begins_of_next? h₁ with
  | tag _ _ htag => exact tag?_ne_text _ htag
  | text _ _ hrest =>
      cases begins_of_next? h₂ with
      | tag _ _ htag => exact tag?_ne_text _ htag
      | text hne hrun _ =>
          obtain ⟨c, run, rfl⟩ := List.exists_cons_of_ne_nil hne
          exact hrun c (by simp) (hrest c (by simp))

/-- What a scanner gives: lexemes that are valid, and no two texts in a row. -/
structure Scanned (styles : StyleTable) (lexemes : List Lexeme) : Prop where
  valid : ∀ lexeme ∈ lexemes, lexeme.Valid styles
  spaced : lexemes.IsChain fun first second => ¬ first.Touches second

theorem Scans.scanned {text last : List Char} {lexemes : List Lexeme}
    (h : Scans styles text lexemes last) : Scanned styles lexemes := by
  induction h with
  | done => exact ⟨by simp, .nil⟩
  | step hnext hrest ih =>
      refine ⟨List.forall_mem_cons.mpr ⟨valid_of_next? hnext, ih.valid⟩, ?_⟩
      refine List.isChain_cons.mpr ⟨?_, ih.spaced⟩
      intro second hsecond
      cases hrest with
      | done => simp at hsecond
      | step hnext' _ =>
          obtain rfl := Option.some.inj hsecond
          exact not_touches_of_next? hnext hnext'

section

variable {first second : List Lexeme} {lexeme : Lexeme}

theorem Scanned.tail (h : Scanned styles (lexeme :: first)) : Scanned styles first :=
  ⟨fun other hother => h.valid other (List.mem_cons_of_mem _ hother), h.spaced.tail⟩

theorem Scanned.left (h : Scanned styles (first ++ second)) : Scanned styles first :=
  ⟨fun other hother => h.valid other (List.mem_append_left _ hother), h.spaced.left_of_append⟩

theorem Scanned.right (h : Scanned styles (first ++ second)) : Scanned styles second :=
  ⟨fun other hother => h.valid other (List.mem_append_right _ hother), h.spaced.right_of_append⟩

end

/-! ## Trees of templates -/

theorem not_isPlain_doubled : ¬ IsPlain "\x7b\x7b" := by
  rintro ⟨_, h⟩
  exact h (by decide)

theorem exists_text_of_isRun {lexeme : Lexeme} {token : Token} (htoken : lexeme.token? = some token)
    (hrun : IsRun token) : ∃ run, lexeme = .text run := by
  cases lexeme with
  | text run => exact ⟨run, rfl⟩
  | escape =>
      obtain rfl := Option.some.inj htoken
      exact (not_isPlain_doubled hrun).elim
  | style name =>
      obtain rfl := Option.some.inj htoken
      exact hrun.elim
  | component name pairs =>
      obtain rfl := Option.some.inj htoken
      exact hrun.elim
  | header condition => cases htoken
  | alternate => cases htoken
  | close => cases htoken

theorem exists_text_of_derives {lexemes : List Lexeme} {tokens : List Token} {token : Token}
    (h : Derives lexemes tokens) (htoken : token ∈ tokens.head?) (hrun : IsRun token) :
    ∃ run, .text run ∈ lexemes.head? := by
  cases h with
  | nil => simp at htoken
  | leaf hleaf _ =>
      obtain rfl := Option.some.inj htoken
      obtain ⟨run, rfl⟩ := exists_text_of_isRun hleaf hrun
      exact ⟨run, rfl⟩
  | single =>
      obtain rfl := Option.some.inj htoken
      exact hrun.elim
  | double =>
      obtain rfl := Option.some.inj htoken
      exact hrun.elim

theorem validToken_of_token? {lexeme : Lexeme} {token : Token} (hvalid : lexeme.Valid styles)
    (h : lexeme.token? = some token) : ValidToken styles token := by
  cases lexeme with
  | text run =>
      obtain rfl := Option.some.inj h
      exact .inr hvalid
  | escape =>
      obtain rfl := Option.some.inj h
      exact .inl rfl
  | style name =>
      obtain rfl := Option.some.inj h
      exact hvalid
  | component name pairs =>
      obtain rfl := Option.some.inj h
      refine ⟨fun pair hpair => hvalid.1 pair (Dictionary.mem_of_mem_ofPairs hpair), ?_⟩
      intro hnil
      exact hvalid.2 (Dictionary.entries_ofPairs_eq_nil_iff.mp hnil)
  | header condition => cases h
  | alternate => cases h
  | close => cases h

/-- Trees that are derived from scanned lexemes are valid. -/
theorem validTokens_of_derives {lexemes : List Lexeme} {tree : List Token}
    (h : Derives lexemes tree) (hscanned : Scanned styles lexemes) : ValidTokens styles tree := by
  induction h with
  | nil => trivial
  | @leaf lexeme token lexemes tokens htoken hderives ih =>
      refine ⟨validToken_of_token? (hscanned.valid lexeme (by simp)) htoken, ?_, ih hscanned.tail⟩
      rintro next hnext ⟨hrun, hrun'⟩
      obtain ⟨run, rfl⟩ := exists_text_of_isRun htoken hrun
      obtain ⟨run', hother⟩ := exists_text_of_derives hderives hnext hrun'
      exact hscanned.spaced.rel_head? hother trivial
  | single hleft _ _ ihfirst ih =>
      have hcondition := hscanned.valid _ (List.mem_cons_self ..)
      refine ⟨⟨hcondition, hleft, ihfirst hscanned.tail.left, trivial⟩, ?_,
        ih hscanned.tail.right.tail⟩
      exact fun _ _ hruns => hruns.1
  | double hleft hright _ _ _ ihfirst ihsecond ih =>
      have hcondition := hscanned.valid _ (List.mem_cons_self ..)
      have hsecond := hscanned.tail.right.tail
      refine ⟨⟨hcondition, hleft, ihfirst hscanned.tail.left, hright, ihsecond hsecond.left⟩, ?_,
        ih hsecond.right.tail⟩
      exact fun _ _ hruns => hruns.1

/-- What a template is read as is well-formed. -/
theorem wellFormed_of_parse {template : String} {tree : List Token}
    (h : parse styles template = .ok tree) : WellFormed styles tree := by
  obtain ⟨lexemes, hscan, hne, hderives⟩ := parse_eq_ok_iff_derives.mp h
  exact ⟨hne, validTokens_of_derives hderives (scan_eq_some_iff.mp hscan).scanned⟩

end ShellPrompt.Template
