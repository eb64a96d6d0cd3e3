import ShellPrompt.Proofs.Template.Nesting

/-! # More keywords

A table with more keywords reads every template that a smaller one reads, and the same tree, as long
as no new keyword can be taken for something else: for a component, or for the header of a
conditional, which may be written without a space behind `if`. -/

namespace ShellPrompt.Template

open Text

variable {base larger : StyleTable}

/-- A name that is neither a component nor begins like the header of a conditional. -/
structure IsFree (name : String) : Prop where
  not_component : ComponentName.ofIdentifier? name = none
  not_if : ¬ ['i', 'f'] <+: name.toList

/-- A table that knows the keywords of another, and besides these free names only. -/
structure Extends (larger base : StyleTable) : Prop where
  contains : ∀ name, base.contains name = true → larger.contains name = true
  free : ∀ name, larger.contains name = true → base.contains name = true ∨ IsFree name

section

variable {body : List Char}

/-- A tag whose first word is not free is a keyword for both tables or for none. -/
theorem Extends.styleTag?_eq_none (h : Extends larger base)
    (hbase : styleTag? base body = none)
    (hlead : ∀ name : String, leadingWord body = name.toList → ¬ IsFree name) :
    styleTag? larger body = none := by
  apply Option.eq_none_iff_forall_ne_some.mpr
  intro name hstyle
  obtain ⟨hname, hknown, hbody⟩ := styleTag?_eq_some_iff.mp hstyle
  rcases h.free name hknown with hcontains | hfree
  · cases hbase.symm.trans (styleTag?_eq_some_iff.mpr ⟨hname, hcontains, hbody⟩)
  · exact hlead name (leadingWord_of_styleTag? hstyle) hfree

theorem not_isFree_of_headerTag? {condition : Condition} (h : headerTag? body = some condition)
    (name : String) (hlead : leadingWord body = name.toList) : ¬ IsFree name := by
  intro hfree
  obtain ⟨rest, hif⟩ := leadingWord_of_headerTag? h
  exact hfree.not_if ⟨rest, hif.symm.trans hlead⟩

theorem not_isFree_of_componentTag? {component : ComponentName} {pairs : List (String × String)}
    (h : componentTag? body = some (component, pairs)) (name : String)
    (hlead : leadingWord body = name.toList) : ¬ IsFree name := by
  intro hfree
  have hname : name = component.identifier :=
    String.toList_injective (hlead.symm.trans (leadingWord_of_componentTag? h))
  cases hfree.not_component.symm.trans (ofIdentifier?_eq_some_iff.mpr hname)

/-- What a tag is for a table it is for a larger one too. -/
theorem Extends.tag?_eq_some (h : Extends larger base) {lexeme : Lexeme}
    (htag : tag? base body = some lexeme) : tag? larger body = some lexeme := by
  cases classified_of_tag? htag with
  | close => exact tag?_eq_close_iff.mpr rfl
  | alternate => exact tag?_eq_alternate_iff.mpr rfl
  | style hstyle =>
      obtain ⟨hname, hknown, hbody⟩ := styleTag?_eq_some_iff.mp hstyle
      exact tag?_eq_style_iff.mpr
        (styleTag?_eq_some_iff.mpr ⟨hname, h.contains _ hknown, hbody⟩)
  | header hstyle hheader =>
      have hnone := h.styleTag?_eq_none hstyle (not_isFree_of_headerTag? hheader)
      exact tag?_eq_header_iff.mpr ⟨hnone, hheader⟩
  | component hstyle hcomponent =>
      have hnone := h.styleTag?_eq_none hstyle (not_isFree_of_componentTag? hcomponent)
      exact tag?_eq_component_iff.mpr ⟨hnone, hcomponent⟩

end

section

variable {text rest : List Char}

theorem Extends.next?_eq_some (h : Extends larger base) {lexeme : Lexeme}
    (hnext : next? base text = some (lexeme, rest)) : next? larger text = some (lexeme, rest) := by
  cases begins_of_next? hnext with
  | text hne hrun hrest => exact next?_run hne hrun hrest
  | escape => rfl
  | tag hhead hbody htag => exact next?_of_tag? (h.tag?_eq_some htag) hhead hbody

theorem Extends.scans (h : Extends larger base) {lexemes : List Lexeme}
    (hscans : Scans base text lexemes rest) : Scans larger text lexemes rest := by
  induction hscans with
  | done text => exact .done text
  | step hnext _ ih => exact .step (h.next?_eq_some hnext) ih

end

/-- How lexemes make up a tree has nothing to do with keywords, so more of them change no tree. -/
theorem Extends.parse_eq_ok (h : Extends larger base) {template : String} {tree : List Token}
    (hparse : parse base template = .ok tree) : parse larger template = .ok tree := by
  obtain ⟨lexemes, hscan, hne, hderives⟩ := parse_eq_ok_iff_derives.mp hparse
  have hlarger := h.scans (scan_eq_some_iff.mp hscan)
  exact parse_eq_ok_iff_derives.mpr ⟨lexemes, scan_eq_some_iff.mpr hlarger, hne, hderives⟩

/-- A keyword in braces is read as that keyword, with any blanks around it. -/
theorem parse_keyword {styles : StyleTable} {name before after : String} (hname : IsName name)
    (hknown : styles.contains name = true) (hbefore : AllBlank before.toList)
    (hafter : AllBlank after.toList) :
    parse styles ("\x7b" ++ before ++ name ++ after ++ "\x7d") = .ok [.style name] := by
  have hclosing : '}' ∉ before.toList ++ name.toList ++ after.toList := by
    simp [hbefore.closing_notMem, hname.closing_notMem, hafter.closing_notMem]
  have hopening : ∀ c ∈ before.toList ++ name.toList, c ≠ '{' := by
    rintro c hc rfl
    rcases List.mem_append.mp hc with hc | hc
    · exact notMem_of_all hbefore (by decide) hc
    · exact notMem_of_all (isName_iff.mp hname).2.1 (by decide) hc
  have hhead : (before.toList ++ name.toList ++ after.toList).head? ≠ some '{' := by
    rw [List.head?_append_of_ne_nil _ (by simp [hname.ne_nil])]
    exact fun h => hopening '{' (List.mem_of_head? h) rfl
  have htag : tag? styles (before.toList ++ name.toList ++ after.toList) = some (.style name) :=
    tag?_eq_style_iff.mpr
      (styleTag?_eq_some_iff.mpr ⟨hname, hknown, _, _, hbefore, hafter, rfl⟩)
  have hnext : next? styles ('{' :: (before.toList ++ name.toList ++ after.toList ++ '}' :: [])) =
      some (.style name, []) := next?_of_tag? htag hhead hclosing
  have htext : ("\x7b" ++ before ++ name ++ after ++ "\x7d").toList =
      '{' :: (before.toList ++ name.toList ++ after.toList ++ '}' :: []) := by
    simp [String.toList_append]
  refine parse_eq_ok_iff_derives.mpr ⟨[.style name], ?_, by simp, .leaf rfl .nil⟩
  rw [htext, scan_eq_some_iff]
  exact .step hnext (.done [])

end ShellPrompt.Template
