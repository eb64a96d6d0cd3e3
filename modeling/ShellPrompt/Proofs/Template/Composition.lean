import ShellPrompt.Proofs.Template.Joining
import ShellPrompt.Proofs.Template.RoundTrip

/-! # Templates made of templates

Templates can be put side by side and into the branches of a conditional, and nothing changes inside
of them. And a template can be taken off another one: what is left is a template or nothing. -/

namespace ShellPrompt.Template

variable {styles : StyleTable}

/-! ## Conditionals around templates -/

theorem identifier_of_ofIdentifier? {name : String} {condition : Condition}
    (h : Condition.ofIdentifier? name = some condition) : condition.identifier = name := by
  unfold Condition.ofIdentifier? at h
  split at h
  · rename_i hname
    obtain rfl := Option.some.inj h
    exact hname.symm
  · dsimp only at h
    split at h
    · rename_i hmark
      obtain rfl := Option.some.inj h
      obtain ⟨rest, hrest⟩ := List.isPrefixOf_iff_prefix.mp hmark.1
      apply String.toList_injective
      rw [toList_identifier_environmentHas, String.toList_ofList, ← hrest, List.drop_left]
    · cases h

/-- A word that names a condition can be written in a template, if it has letters and underscores
only. -/
theorem isName_of_ofIdentifier? {name : String} {condition : Condition}
    (h : Condition.ofIdentifier? name = some condition)
    (hchars : ∀ c ∈ name.toList, isIdentifierChar c = true) : IsName name := by
  have hother : ∀ word, Condition.ofIdentifier? word = none → name ≠ word := by
    rintro _ hword rfl
    cases hword.symm.trans h
  refine isName_iff.mpr ⟨hother "" (by decide), hchars, ?_⟩
  simp only [reservedWords, List.mem_cons, List.not_mem_nil, or_false, not_or]
  exact ⟨hother "end" (by decide), hother "else" (by decide)⟩

theorem next?_if {name : String} {condition : Condition} {rest : List Char}
    (h : Condition.ofIdentifier? name = some condition)
    (hchars : ∀ c ∈ name.toList, isIdentifierChar c = true) :
    next? styles ("\x7bif ".toList ++ name.toList ++ ['}'] ++ rest) =
      some (.header condition, rest) := by
  have hcondition := isCondition_of_ofIdentifier? (isName_of_ofIdentifier? h hchars) h
  rw [← identifier_of_ofIdentifier? h]
  exact next?_header hcondition

section

variable {name first second : String} {condition : Condition} {tree tree' : List Token}

/-- A template is scanned in front of a tag as it is by itself. -/
theorem scans_branch {lexemes : List Lexeme} {lexeme : Lexeme} {text rest : List Char}
    (hscan : scan styles first.toList = some lexemes) (hbrace : ∀ c ∈ text.head?, c = '{')
    (htag : next? styles text = some (lexeme, rest)) :
    Scans styles (first.toList ++ text) (lexemes ++ [lexeme]) rest :=
  ((scan_eq_some_iff.mp hscan).before (follows_of_brace hbrace)).append (.step htag (.done rest))

theorem next?_end (styles : StyleTable) :
    next? styles "\x7bend\x7d".toList = some (.close, []) :=
  (next?_eq_close_iff styles).mpr (by simp)

theorem parse_conditional_single (hname : Condition.ofIdentifier? name = some condition)
    (hchars : ∀ c ∈ name.toList, isIdentifierChar c = true)
    (h : parse styles first = .ok tree) :
    parse styles ("\x7bif " ++ name ++ "\x7d" ++ first ++ "\x7bend\x7d") =
      .ok [.conditional condition tree none] := by
  obtain ⟨lexemes, hscan, hne, hderives⟩ := parse_eq_ok_iff_derives.mp h
  have hbranch := scans_branch hscan (by simp) (next?_end styles)
  have hscans := Scans.step (next?_if hname hchars) hbranch
  refine parse_eq_ok_iff_derives.mpr ⟨.header condition :: (lexemes ++ [.close]), ?_, by simp,
    .single hne hderives .nil⟩
  rw [scan_eq_some_iff]
  simpa [String.toList_append] using hscans

theorem parse_conditional_double (hname : Condition.ofIdentifier? name = some condition)
    (hchars : ∀ c ∈ name.toList, isIdentifierChar c = true)
    (h₁ : parse styles first = .ok tree) (h₂ : parse styles second = .ok tree') :
    parse styles ("\x7bif " ++ name ++ "\x7d" ++ first ++ "\x7belse\x7d" ++ second ++
        "\x7bend\x7d") =
      .ok [.conditional condition tree (some tree')] := by
  obtain ⟨lexemes, hscan, hne, hderives⟩ := parse_eq_ok_iff_derives.mp h₁
  obtain ⟨lexemes', hscan', hne', hderives'⟩ := parse_eq_ok_iff_derives.mp h₂
  have hsecond := scans_branch hscan' (by simp) (next?_end styles)
  have halternate : next? styles
      ("\x7belse\x7d".toList ++ (second.toList ++ "\x7bend\x7d".toList)) =
        some (.alternate, second.toList ++ "\x7bend\x7d".toList) :=
    (next?_eq_alternate_iff styles).mpr rfl
  have hbranches := (scans_branch hscan (by simp) halternate).append hsecond
  have hscans := Scans.step (next?_if hname hchars) hbranches
  refine parse_eq_ok_iff_derives.mpr
    ⟨.header condition :: (lexemes ++ .alternate :: (lexemes' ++ [.close])), ?_, by simp,
      .double hne hne' hderives hderives' .nil⟩
  rw [scan_eq_some_iff]
  simpa [String.toList_append] using hscans

end

/-! ## What is left of a template -/

/-- Where a template and a longer one are read, what the longer one has more is a template too. -/
theorem exists_parse_of_append {first second : String} {tree whole : List Token}
    (h : parse styles first = .ok tree) (hwhole : parse styles (first ++ second) = .ok whole)
    (hne : second ≠ "") : ∃ rest, parse styles second = .ok rest := by
  obtain ⟨_, stop, hstop, hrepeats⟩ := parse_eq_ok_iff_repeats.mp hwhole
  obtain ⟨run, last, place, more, rfl, hrun, hplace, hmore⟩ := exists_repeats_of_append h hrepeats
  obtain ⟨lexemes, hscan, hderives⟩ := exists_scans_of_repeats hmore
  rw [hstop, hplace] at hscan
  by_cases hlast : last = ""
  · subst hlast
    rw [String.append_empty] at hne ⊢
    exact ⟨_, parse_text hne hrun⟩
  · have htokens : more ≠ [] := by
      rintro rfl
      cases hderives
      generalize htext : last.toList = text at hscan
      cases hscan
      exact hlast (String.toList_eq_nil_iff.mp htext)
    have hparse := parse_eq_ok_iff_derives.mpr
      ⟨lexemes, scan_eq_some_iff.mpr hscan, htokens, hderives⟩
    exact exists_parse_text_append hrun hparse

/-- Templates compose. Side by side they are read as the one tree behind the other, where two texts
without braces become one; in the branches of a conditional they are read as they are by themselves,
whatever condition is asked; and what a template has behind another one is read by itself, if it is
not empty. -/
theorem parse_composed (styles : StyleTable) :
    (∀ first second tree tree', parse styles first = .ok tree → parse styles second = .ok tree' →
      parse styles (first ++ second) = .ok (joinTrees tree tree')) ∧
    (∀ name condition first tree, Condition.ofIdentifier? name = some condition →
      (∀ c ∈ name.toList, isIdentifierChar c = true) → parse styles first = .ok tree →
      parse styles ("\x7bif " ++ name ++ "\x7d" ++ first ++ "\x7bend\x7d") =
          .ok [.conditional condition tree none] ∧
        ∀ second tree', parse styles second = .ok tree' →
          parse styles ("\x7bif " ++ name ++ "\x7d" ++ first ++ "\x7belse\x7d" ++ second ++
              "\x7bend\x7d") =
            .ok [.conditional condition tree (some tree')]) ∧
    ∀ first second tree whole, parse styles first = .ok tree →
      parse styles (first ++ second) = .ok whole → second ≠ "" →
      ∃ rest, parse styles second = .ok rest := by
  refine ⟨fun first second tree tree' => parse_append_eq_join, ?_,
    fun first second tree whole => exists_parse_of_append⟩
  intro name condition first tree hname hchars hfirst
  exact ⟨parse_conditional_single hname hchars hfirst,
    fun second tree' hsecond => parse_conditional_double hname hchars hfirst hsecond⟩

end ShellPrompt.Template
