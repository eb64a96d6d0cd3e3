import ShellPrompt.Proofs.Template.Lexing

/-! # Trees of lexemes

A tree is derived from a sequence of lexemes by matching every header with its tags. The grammar
reads exactly the derived trees: reading a branch as far as it goes, and looking for a second branch
before the end, never rules out a derivation. -/

namespace ShellPrompt.Template

variable {styles : StyleTable} {start stop : Cursor}

/-- The lexemes that the tokens of a list are written with. -/
inductive Derives : List Lexeme → List Token → Prop where
  | nil : Derives [] []
  | leaf {lexeme token lexemes tokens} (htoken : lexeme.token? = some token) :
      Derives lexemes tokens → Derives (lexeme :: lexemes) (token :: tokens)
  | single {condition first left lexemes tokens} (hleft : left ≠ []) :
      Derives first left → Derives lexemes tokens →
      Derives (.header condition :: (first ++ .close :: lexemes))
        (.conditional condition left none :: tokens)
  | double {condition first second left right lexemes tokens} (hleft : left ≠ [])
      (hright : right ≠ []) :
      Derives first left → Derives second right → Derives lexemes tokens →
      Derives (.header condition :: (first ++ .alternate :: (second ++ .close :: lexemes)))
        (.conditional condition left (some right) :: tokens)

theorem Derives.append {first second : List Lexeme} {left right : List Token}
    (h₁ : Derives first left) (h₂ : Derives second right) :
    Derives (first ++ second) (left ++ right) := by
  induction h₁ with
  | nil => exact h₂
  | leaf htoken _ ih => exact .leaf htoken ih
  | single hleft hfirst _ _ ih =>
      simpa using Derives.single hleft hfirst ih
  | double hleft hright hfirst hsecond _ _ _ ih =>
      simpa using Derives.double hleft hright hfirst hsecond ih

/-! ## Scanning part of a text -/

section

variable {text last : List Char} {lexeme : Lexeme} {first second : List Lexeme}

theorem Scans.split (h : Scans styles text (first ++ second) last) :
    ∃ middle, Scans styles text first middle ∧ Scans styles middle second last := by
  induction first generalizing text with
  | nil => exact ⟨text, .done text, h⟩
  | cons lexeme first ih =>
      rw [List.cons_append] at h
      cases h with
      | step hnext hrest =>
          obtain ⟨middle, hfirst, hsecond⟩ := ih hrest
          exact ⟨middle, .step hnext hfirst, hsecond⟩

theorem scans_cons_iff :
    Scans styles text (lexeme :: first) last ↔
      ∃ middle, next? styles text = some (lexeme, middle) ∧ Scans styles middle first last := by
  constructor
  · intro h
    cases h with
    | step hnext hrest => exact ⟨_, hnext, hrest⟩
  · rintro ⟨middle, hnext, hrest⟩
    exact .step hnext hrest

theorem Scans.length_le (h : Scans styles text first last) : last.length ≤ text.length := by
  induction h with
  | done => exact le_rfl
  | step hnext _ ih =>
      have := next?_length_lt hnext
      omega

theorem Scans.length_lt (h : Scans styles text (lexeme :: first) last) :
    last.length < text.length := by
  obtain ⟨middle, hnext, hrest⟩ := scans_cons_iff.mp h
  have := next?_length_lt hnext
  have := hrest.length_le
  omega

end

/-! ## Conditionals -/

theorem header_length_lt {condition : Condition}
    (h : Parser.preceded ifStart ifCondition start = some (condition, stop)) :
    stop.rest.length < start.rest.length := by
  obtain ⟨before, between, name, _, _, _, _, hreads⟩ := header_eq_some_iff.mp h
  rw [hreads.1]
  simp only [List.length_append, List.length_cons]
  omega

theorem elseBranchOf_eq_some_iff {branch : Parser (List Token)} {right : List Token} :
    elseBranchOf branch start = some (right, stop) ↔
      ∃ middle, start.Reads "\x7belse\x7d".toList middle ∧ branch middle = some (right, stop) := by
  rw [elseBranchOf, Parser.preceded_eq_some_iff]
  constructor
  · rintro ⟨_, middle, htag, hbranch⟩
    exact ⟨middle, (Parser.tag_eq_some_iff.mp htag).2, hbranch⟩
  · rintro ⟨middle, htag, hbranch⟩
    exact ⟨_, middle, Parser.tag_eq_some_iff.mpr ⟨rfl, htag⟩, hbranch⟩

theorem conditionalOf_eq_some_iff {branch : Parser (List Token)} {token : Token} :
    conditionalOf branch start = some (token, stop) ↔
      ∃ condition left right first second third,
        token = .conditional condition left right ∧
        Parser.preceded ifStart ifCondition start = some (condition, first) ∧
        branch first = some (left, second) ∧
        (elseBranchOf branch).optional second = some (right, third) ∧
        third.Reads "\x7bend\x7d".toList stop := by
  rw [conditionalOf, Parser.map_eq_some_iff]
  constructor
  · rintro ⟨⟨condition, left, right⟩, h, rfl⟩
    obtain ⟨first, hheader, h⟩ := Parser.both_eq_some_iff.mp h
    obtain ⟨second, hleft, h⟩ := Parser.both_eq_some_iff.mp h
    obtain ⟨third, _, hright, hend⟩ := Parser.terminated_eq_some_iff.mp h
    exact ⟨condition, left, right, first, second, third, rfl, hheader, hleft, hright,
      (Parser.tag_eq_some_iff.mp hend).2⟩
  · rintro ⟨condition, left, right, first, second, third, rfl, hheader, hleft, hright, hend⟩
    refine ⟨(condition, left, right), Parser.both_eq_some_iff.mpr ⟨first, hheader,
      Parser.both_eq_some_iff.mpr ⟨second, hleft, ?_⟩⟩, rfl⟩
    exact Parser.terminated_eq_some_iff.mpr
      ⟨third, _, hright, Parser.tag_eq_some_iff.mpr ⟨rfl, hend⟩⟩

/-- Branches are read at places behind the header only. -/
theorem conditionalOf_congr {p q : Parser Token}
    (h : ∀ place : Cursor, place.rest.length < start.rest.length → p place = q place) :
    conditionalOf (.many1 p) start = conditionalOf (.many1 q) start := by
  have hmany : ∀ place : Cursor, place.rest.length < start.rest.length →
      p.many1 place = q.many1 place := fun place hplace =>
    Parser.many1_congr fun inner hinner => h inner (by omega)
  have helse : ∀ place : Cursor, place.rest.length < start.rest.length →
      elseBranchOf p.many1 place = elseBranchOf q.many1 place := by
    intro place hplace
    refine Option.ext fun ⟨right, last⟩ => ?_
    rw [elseBranchOf_eq_some_iff, elseBranchOf_eq_some_iff]
    refine exists_congr fun middle => and_congr_right fun hreads => ?_
    have := hreads.length_le
    rw [hmany middle (by omega)]
  refine Option.ext fun ⟨token, last⟩ => ?_
  rw [conditionalOf_eq_some_iff, conditionalOf_eq_some_iff]
  refine exists_congr fun condition => exists_congr fun left => exists_congr fun right =>
    exists_congr fun first => exists_congr fun second => exists_congr fun third =>
    and_congr_right fun _ => and_congr_right fun hheader => ?_
  have hfirst := header_length_lt hheader
  rw [hmany first hfirst]
  refine and_congr_right fun hleft => ?_
  have hsecond := (Parser.many1_eq_some_iff.mp hleft).1.length_le
  rw [Parser.optional, Parser.optional, helse second (by omega)]

/-- The inner tokens of a token are read as any others. -/
theorem token_eq : token styles start = tokenOf styles (token styles) start := by
  have h : conditionalOf (.many1 fun inner =>
      if inner.rest.length < start.rest.length then token styles inner else none) start =
        conditionalOf (.many1 (token styles)) start :=
    conditionalOf_congr fun place hplace => if_pos hplace
  rw [token]
  simp only [tokenOf, Parser.firstOf, h]

theorem token_eq_none {text : List Char} (hstart : start.rest = text)
    (h : ∀ lexeme rest, next? styles text = some (lexeme, rest) →
      lexeme = .alternate ∨ lexeme = .close) : token styles start = none := by
  rw [token_eq]
  apply tokenOf_eq_none
  rw [hstart]
  exact h

/-- Repetition stops where no lexeme begins a token. -/
theorem repeats_nil_of_next? (h : ∀ lexeme rest, next? styles start.rest = some (lexeme, rest) →
    lexeme = .alternate ∨ lexeme = .close) : Parser.Repeats (token styles) start [] start := by
  apply Parser.Repeats.done
  rw [token_eq_none rfl h]
  simp

/-! ## Every derivation is read -/

theorem elseBranchOf_eq_none {branch : Parser (List Token)} {rest : List Char}
    (h : next? styles start.rest = some (.close, rest)) : elseBranchOf branch start = none := by
  apply Option.eq_none_iff_forall_ne_some.mpr
  rintro ⟨right, last⟩ helse
  obtain ⟨middle, hreads, _⟩ := elseBranchOf_eq_some_iff.mp helse
  have halternate := (next?_eq_alternate_iff styles).mpr hreads.1
  cases h.symm.trans halternate

/-- A header, its branches and the tag of its end are read as a conditional. -/
theorem token_of_header {condition : Condition} {left : List Token} {text rest : List Char}
    (right : Option (List Token))
    (hheader : next? styles start.rest = some (.header condition, text))
    (hbranches : ∀ place : Cursor, place.rest = text → ∃ second third,
      (Parser.many1 (token styles)) place = some (left, second) ∧
      (elseBranchOf (.many1 (token styles))).optional second = some (right, third) ∧
      next? styles third.rest = some (.close, rest)) :
    ∃ stop, stop.rest = rest ∧
      token styles start = some (.conditional condition left right, stop) := by
  obtain ⟨hconditional, place, hplace, hfirst⟩ := tokenOf_of_header (token styles) hheader
  obtain ⟨second, third, hleft, hright, hclose⟩ := hbranches place hplace
  obtain ⟨stop, hstop, htag⟩ := Parser.tag_of_rest ((next?_eq_close_iff styles).mp hclose)
  refine ⟨stop, hstop, ?_⟩
  rw [token_eq, hconditional]
  exact conditionalOf_eq_some_iff.mpr ⟨condition, left, right, place, second, third, rfl, hfirst,
    hleft, hright, (Parser.tag_eq_some_iff.mp htag).2⟩

/-- Where a tree is derived from the first lexemes of a text, repetition reads it and goes on from the
place behind these lexemes. -/
theorem repeats_append_of_derives {lexemes : List Lexeme} {tree : List Token} {rest : List Char}
    (h : Derives lexemes tree) (hscan : Scans styles start.rest lexemes rest) :
    ∃ place : Cursor, place.rest = rest ∧ ∀ more stop,
      Parser.Repeats (token styles) place more stop →
      Parser.Repeats (token styles) start (tree ++ more) stop := by
  induction h generalizing start rest with
  | nil =>
      generalize htext : start.rest = text at hscan
      cases hscan with
      | done => exact ⟨start, htext, fun more stop hmore => hmore⟩
  | leaf htoken _ ih =>
      obtain ⟨middle, hnext, hscan⟩ := scans_cons_iff.mp hscan
      obtain ⟨next, rfl, hread⟩ := tokenOf_of_token? (Template.token styles) hnext htoken
      rw [← token_eq] at hread
      obtain ⟨place, hplace, hrest⟩ := ih hscan
      exact ⟨place, hplace, fun more stop hmore =>
        .more hread (next?_length_lt hnext) (hrest more stop hmore)⟩
  | single hleft _ _ ihfirst ih =>
      obtain ⟨text, hheader, hscan⟩ := scans_cons_iff.mp hscan
      obtain ⟨middle, hfirst, hscan⟩ := hscan.split
      obtain ⟨after, hclose, hscan⟩ := scans_cons_iff.mp hscan
      obtain ⟨next, rfl, hread⟩ := token_of_header none hheader fun place hplace => by
        subst hplace
        obtain ⟨second, rfl, hbranch⟩ := ihfirst hfirst
        have hdone := hbranch [] second (repeats_nil_of_next? (by simp [hclose]))
        rw [List.append_nil] at hdone
        exact ⟨second, second, Parser.many1_eq_some_iff.mpr ⟨hdone, hleft⟩,
          Parser.optional_eq_some_iff.mpr (.inr ⟨elseBranchOf_eq_none hclose, rfl, rfl⟩), hclose⟩
      have hpassed := Scans.step hheader (hfirst.append (.step hclose (.done _)))
      obtain ⟨place, hplace, hrest⟩ := ih hscan
      exact ⟨place, hplace, fun more stop hmore =>
        .more hread hpassed.length_lt (hrest more stop hmore)⟩
  | double hleft hright _ _ _ ihfirst ihsecond ih =>
      obtain ⟨text, hheader, hscan⟩ := scans_cons_iff.mp hscan
      obtain ⟨middle, hfirst, hscan⟩ := hscan.split
      obtain ⟨after, halternate, hscan⟩ := scans_cons_iff.mp hscan
      obtain ⟨final, hsecond, hscan⟩ := hscan.split
      obtain ⟨behind, hclose, hscan⟩ := scans_cons_iff.mp hscan
      obtain ⟨next, rfl, hread⟩ := token_of_header (some _) hheader fun place hplace => by
        subst hplace
        obtain ⟨second, rfl, hbranch⟩ := ihfirst hfirst
        have hdone := hbranch [] second (repeats_nil_of_next? (by simp [halternate]))
        obtain ⟨inner, rfl, htag⟩ :=
          Parser.tag_of_rest ((next?_eq_alternate_iff styles).mp halternate)
        obtain ⟨third, rfl, hother⟩ := ihsecond hsecond
        have hdone' := hother [] third (repeats_nil_of_next? (by simp [hclose]))
        rw [List.append_nil] at hdone hdone'
        have helse := elseBranchOf_eq_some_iff.mpr ⟨inner, (Parser.tag_eq_some_iff.mp htag).2,
          Parser.many1_eq_some_iff.mpr ⟨hdone', hright⟩⟩
        exact ⟨second, third, Parser.many1_eq_some_iff.mpr ⟨hdone, hleft⟩,
          Parser.optional_eq_some_iff.mpr (.inl ⟨_, helse, rfl⟩), hclose⟩
      have hpassed := Scans.step hheader
        (hfirst.append (.step halternate (hsecond.append (.step hclose (.done _)))))
      obtain ⟨place, hplace, hrest⟩ := ih hscan
      exact ⟨place, hplace, fun more stop hmore =>
        .more hread hpassed.length_lt (hrest more stop hmore)⟩

/-! ## Only derivations are read -/

/-- What a repetition reads is derived if what it repeats is. -/
theorem derives_of_repeats {tree : List Token}
    (h : Parser.Repeats (token styles) start tree stop)
    (htoken : ∀ place token next, place.rest.length ≤ start.rest.length →
      Template.token styles place = some (token, next) →
      ∃ lexemes, Scans styles place.rest lexemes next.rest ∧ Derives lexemes [token]) :
    ∃ lexemes, Scans styles start.rest lexemes stop.rest ∧ Derives lexemes tree := by
  induction h with
  | @done start _ => exact ⟨[], .done _, .nil⟩
  | @more start next stop token tokens h hnext _ ih =>
      obtain ⟨first, hfirst, htree⟩ := htoken start token next le_rfl h
      obtain ⟨second, hsecond, htrees⟩ := ih fun place token last hplace =>
        htoken place token last (by omega)
      exact ⟨first ++ second, hfirst.append hsecond, htree.append htrees⟩

/-- What is read as a conditional is derived if what its branches hold is. -/
theorem derives_of_conditional {condition : Condition} {token : Token} {rest : List Char}
    (hnext : next? styles start.rest = some (.header condition, rest))
    (h : conditionalOf (.many1 (Template.token styles)) start = some (token, stop))
    (hbranch : ∀ place tree next, place.rest.length < start.rest.length →
      Parser.Repeats (Template.token styles) place tree next →
      ∃ lexemes, Scans styles place.rest lexemes next.rest ∧ Derives lexemes tree) :
    ∃ lexemes, Scans styles start.rest lexemes stop.rest ∧ Derives lexemes [token] := by
  obtain ⟨_, place, rfl, hplace⟩ := tokenOf_of_header (Template.token styles) hnext
  obtain ⟨_, left, right, _, second, third, rfl, hheader, hleft, hright, hend⟩ :=
    conditionalOf_eq_some_iff.mp h
  obtain ⟨rfl, rfl⟩ := Prod.mk.inj (Option.some.inj (hplace.symm.trans hheader))
  have hshorter := header_length_lt hplace
  have hclose := (next?_eq_close_iff styles).mpr hend.1
  obtain ⟨hfirst, hne⟩ := Parser.many1_eq_some_iff.mp hleft
  obtain ⟨first, hscan, htree⟩ := hbranch place left second hshorter hfirst
  rcases Parser.optional_eq_some_iff.mp hright with ⟨other, helse, rfl⟩ | ⟨_, rfl, rfl⟩
  · obtain ⟨inner, htag, hother⟩ := elseBranchOf_eq_some_iff.mp helse
    have halternate := (next?_eq_alternate_iff styles).mpr htag.1
    have hinner : inner.rest.length < start.rest.length := by
      have h₁ := hfirst.length_le
      have h₂ := htag.length_le
      omega
    obtain ⟨hother, hne'⟩ := Parser.many1_eq_some_iff.mp hother
    obtain ⟨last, hscan', htree'⟩ := hbranch inner other third hinner hother
    refine ⟨_, .step hnext (hscan.append (.step halternate (hscan'.append
      (.step hclose (.done _))))), ?_⟩
    exact .double hne hne' htree htree' .nil
  · refine ⟨_, .step hnext (hscan.append (.step hclose (.done _))), ?_⟩
    exact .single hne htree .nil

/-- What is read as a token is derived from the lexemes that were passed. -/
theorem derives_of_token {token : Token} (h : Template.token styles start = some (token, stop)) :
    ∃ lexemes, Scans styles start.rest lexemes stop.rest ∧ Derives lexemes [token] := by
  induction hlength : start.rest.length using Nat.strong_induction_on
    generalizing start token stop with
  | _ length ih =>
      subst hlength
      have hbranch : ∀ place tree next, place.rest.length < start.rest.length →
          Parser.Repeats (Template.token styles) place tree next →
          ∃ lexemes, Scans styles place.rest lexemes next.rest ∧ Derives lexemes tree := by
        intro place tree next hplace hrepeats
        apply derives_of_repeats hrepeats
        intro inner token last hinner hread
        exact ih _ (by omega) hread rfl
      cases hnext : next? styles start.rest with
      | none =>
          rw [token_eq_none rfl (by simp [hnext])] at h
          cases h
      | some result =>
          obtain ⟨lexeme, rest⟩ := result
          cases htoken : lexeme.token? with
          | some leaf =>
              obtain ⟨next, rfl, hread⟩ :=
                tokenOf_of_token? (Template.token styles) hnext htoken
              rw [← token_eq, h] at hread
              obtain ⟨rfl, rfl⟩ := Prod.mk.inj (Option.some.inj hread)
              exact ⟨[lexeme], .step hnext (.done _), .leaf htoken .nil⟩
          | none =>
              rcases Lexeme.token?_eq_none_iff.mp htoken with ⟨condition, rfl⟩ | hbranchTag
              · obtain ⟨hconditional, _⟩ :=
                  tokenOf_of_header (Template.token styles) hnext
                rw [token_eq, hconditional] at h
                exact derives_of_conditional hnext h hbranch
              · rw [token_eq_none rfl (by simp [hnext, hbranchTag])] at h
                cases h

theorem exists_scans_of_repeats {tree : List Token}
    (h : Parser.Repeats (token styles) start tree stop) :
    ∃ lexemes, Scans styles start.rest lexemes stop.rest ∧ Derives lexemes tree :=
  derives_of_repeats h fun _ _ _ _ hinner => derives_of_token hinner

/-! ## Whole templates -/

/-- A template is read by repetition, and to its end or not. -/
theorem parse_of_repeats {template : String} {tree : List Token}
    (h : Parser.Repeats (token styles) ⟨0, template.toList⟩ tree stop) :
    parse styles template =
      if tree ≠ [] ∧ stop.rest = [] then .ok tree
      else .error ⟨stop.position, String.ofList stop.rest⟩ := by
  rw [parse]
  dsimp only
  by_cases hne : tree = []
  · subst hne
    have hnone : tokens styles ⟨0, template.toList⟩ = none := by
      apply Option.eq_none_iff_forall_ne_some.mpr
      rintro ⟨other, last⟩ hread
      obtain ⟨hother, hne⟩ := Parser.many1_eq_some_iff.mp hread
      exact hne (Prod.mk.inj (hother.eq.symm.trans h.eq)).1
    rw [hnone, if_neg (by simp)]
    cases h
    rw [String.ofList_toList]
  · have hread : tokens styles ⟨0, template.toList⟩ = some (tree, stop) :=
      Parser.many1_eq_some_iff.mpr ⟨h, hne⟩
    rw [hread]
    simp only [Cursor.atEnd, List.isEmpty_iff, ne_eq, hne, not_false_eq_true, true_and]

theorem parse_eq_ok_iff_repeats {template : String} {tree : List Token} :
    parse styles template = .ok tree ↔
      tree ≠ [] ∧ ∃ stop, stop.rest = [] ∧
        Parser.Repeats (token styles) ⟨0, template.toList⟩ tree stop := by
  constructor
  · intro h
    have hrepeats := Parser.repeats_repeatFrom (token styles) ⟨0, template.toList⟩
    rw [parse_of_repeats hrepeats] at h
    split at h
    · rename_i hall
      obtain rfl := Except.ok.inj h
      exact ⟨hall.1, _, hall.2, hrepeats⟩
    · cases h
  · rintro ⟨hne, stop, hstop, hrepeats⟩
    rw [parse_of_repeats hrepeats, if_pos ⟨hne, hstop⟩]

/-- Parsing a template is scanning it and deriving a tree. -/
theorem parse_eq_ok_iff_derives {template : String} {tree : List Token} :
    parse styles template = .ok tree ↔
      ∃ lexemes, scan styles template.toList = some lexemes ∧ tree ≠ [] ∧ Derives lexemes tree := by
  rw [parse_eq_ok_iff_repeats]
  constructor
  · rintro ⟨hne, stop, hstop, hrepeats⟩
    obtain ⟨lexemes, hscan, hderives⟩ := exists_scans_of_repeats hrepeats
    rw [hstop] at hscan
    exact ⟨lexemes, scan_eq_some_iff.mpr hscan, hne, hderives⟩
  · rintro ⟨lexemes, hscan, hne, hderives⟩
    let start : Cursor := ⟨0, template.toList⟩
    have hscans : Scans styles start.rest lexemes [] := scan_eq_some_iff.mp hscan
    obtain ⟨stop, hstop, hgoesOn⟩ := repeats_append_of_derives hderives hscans
    have hrepeats := hgoesOn [] stop (repeats_nil_of_next? (by simp [hstop, next?]))
    rw [List.append_nil] at hrepeats
    exact ⟨hne, stop, hstop, hrepeats⟩

end ShellPrompt.Template
