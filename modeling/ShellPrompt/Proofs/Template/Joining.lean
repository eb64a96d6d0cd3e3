import ShellPrompt.Proofs.Template.StackMachine
import ShellPrompt.Proofs.Template.WellFormed

/-! # Templates side by side

What a template is read as does not depend on what stands behind it, with one exception: a text at
its end goes on up to the next brace. So two templates in a row are read one after the other, and a
text that ends the first is joined with a text that begins the second. -/

namespace ShellPrompt.Template

variable {styles : StyleTable}

/-! ## Lexemes and what stands behind them -/

/-- A text that can stand behind some lexemes and leaves them as they are. -/
def Follows (text : List Char) (lexemes : List Lexeme) : Prop :=
  ∀ run, .text run ∈ lexemes.getLast? → ∀ c ∈ text.head?, c = '{'

section

variable {text last more : List Char} {lexeme : Lexeme} {lexemes : List Lexeme}

theorem follows_of_brace (h : ∀ c ∈ text.head?, c = '{') : Follows text lexemes := fun _ _ => h

theorem Follows.tail (h : Follows text (lexeme :: lexemes)) : Follows text lexemes := by
  intro run hrun
  refine h run ?_
  rw [List.getLast?_cons, Option.mem_def.mp hrun]
  rfl

/-- The part of a text that is scanned is scanned in the same way in front of other texts. -/
theorem Scans.exists_passed (h : Scans styles text lexemes last) :
    ∃ passed, text = passed ++ last ∧
      ∀ more, Follows more lexemes → Scans styles (passed ++ more) lexemes more := by
  induction h with
  | done text => exact ⟨[], rfl, fun more _ => .done more⟩
  | @step text middle last lexeme lexemes hnext hrest ih =>
      obtain ⟨passed, rfl, hpassed⟩ := ih
      cases begins_of_next? hnext with
      | @text run _ hne hrun hbrace =>
          refine ⟨run ++ passed, (List.append_assoc ..).symm, fun more hmore => ?_⟩
          have hhead : ∀ c ∈ (passed ++ more).head?, c = '{' := by
            cases passed with
            | cons c passed => exact hbrace
            | nil =>
                -- Lexemes are made of characters, so this run is the last one.
                cases lexemes with
                | nil => exact hmore _ rfl
                | cons second lexemes => exact (lt_irrefl _ hrest.length_lt).elim
          rw [List.append_assoc]
          exact .step (next?_run hne hrun hhead) (hpassed more hmore.tail)
      | escape => exact ⟨'{' :: '{' :: passed, rfl, fun more hmore =>
          .step rfl (hpassed more hmore.tail)⟩
      | @tag body _ _ hhead hbody htag =>
          refine ⟨'{' :: (body ++ '}' :: passed), by simp, fun more hmore => ?_⟩
          have hnext : next? styles ('{' :: (body ++ '}' :: (passed ++ more))) =
              some (lexeme, passed ++ more) := next?_of_tag? htag hhead hbody
          rw [List.cons_append, List.append_assoc, List.cons_append]
          exact .step hnext (hpassed more hmore.tail)

theorem Scans.before (h : Scans styles text lexemes []) (hmore : Follows more lexemes) :
    Scans styles (text ++ more) lexemes more := by
  obtain ⟨passed, htext, hpassed⟩ := h.exists_passed
  rw [List.append_nil] at htext
  rw [htext]
  exact hpassed more hmore

theorem scans_text {run : List Char} (hne : run ≠ []) (hrun : ∀ c ∈ run, c ≠ '{') :
    Scans styles run [.text (String.ofList run)] [] := by
  have hnext : next? styles (run ++ []) = some (.text (String.ofList run), []) :=
    next?_run hne hrun (by simp)
  rw [List.append_nil] at hnext
  exact .step hnext (.done [])

/-- What begins with another character than a brace begins with a text. -/
theorem Scans.exists_text (h : Scans styles text lexemes []) {c : Char} (hc : c ∈ text.head?)
    (hbrace : c ≠ '{') : ∃ run rest, lexemes = .text run :: rest := by
  cases h with
  | done => cases hc
  | step hnext hrest =>
      cases begins_of_next? hnext with
      | text => exact ⟨_, _, rfl⟩
      | escape => exact (hbrace (Option.some.inj hc).symm).elim
      | tag => exact (hbrace (Option.some.inj hc).symm).elim

/-- A text that ends a template and a text that begins one are scanned as one text. -/
theorem Scans.joined {first second : List Char} {run run' : String} {before after : List Lexeme}
    (h₁ : Scans styles first (before ++ [.text run]) [])
    (h₂ : Scans styles second (.text run' :: after) []) :
    Scans styles (first ++ second) (before ++ .text (run ++ run') :: after) [] := by
  have hspaced := h₁.scanned.spaced
  obtain ⟨middle, hbefore, hrun⟩ := h₁.split
  obtain ⟨passed, rfl, hpassed⟩ := hbefore.exists_passed
  obtain ⟨_, hnext, hnil⟩ := scans_cons_iff.mp hrun
  obtain ⟨rest, hnext', hafter⟩ := scans_cons_iff.mp h₂
  cases hnil
  have hfollows : ∀ text, Follows text before := by
    intro text other hother
    have htouch := (List.isChain_append.mp hspaced).2.2 _ hother (.text run) rfl
    exact (htouch trivial).elim
  cases begins_of_next? hnext with
  | tag _ _ htag => exact (tag?_ne_text _ htag).elim
  | @text chars _ hne hchars _ =>
      cases begins_of_next? hnext' with
      | tag _ _ htag => exact (tag?_ne_text _ htag).elim
      | @text chars' _ hne' hchars' hrest =>
          have hboth : ∀ c ∈ chars ++ chars', c ≠ '{' := fun c hc =>
            (List.mem_append.mp hc).elim (hchars c) (hchars' c)
          have hjoined : next? styles (chars ++ chars' ++ rest) =
              some (.text (String.ofList (chars ++ chars')), rest) :=
            next?_run (List.append_ne_nil_of_left_ne_nil hne chars') hboth hrest
          have hlast := (hpassed (chars ++ chars' ++ rest) (hfollows _)).append
            (.step hjoined hafter)
          simpa [String.ofList_append] using hlast

end

/-! ## Trees -/

/-- Two texts without braces as one. -/
def mergeTexts? : Token → Token → Option Token
  | .static first, .static second =>
    if '{' ∈ first.toList ∨ '{' ∈ second.toList then none else some (.static (first ++ second))
  | _, _ => none

/-- A tree behind another one: a text without braces that ends the first and one that begins the
second become one. -/
def joinTrees (first second : List Token) : List Token :=
  match first.getLast?, second with
  | some last, next :: rest =>
    match mergeTexts? last next with
    | some merged => first.dropLast ++ merged :: rest
    | none => first ++ second
  | _, _ => first ++ second

theorem joinTrees_texts {before after : List Token} {run run' : String}
    (hrun : '{' ∉ run.toList) (hrun' : '{' ∉ run'.toList) :
    joinTrees (before ++ [.static run]) (.static run' :: after) =
      before ++ .static (run ++ run') :: after := by
  simp [joinTrees, mergeTexts?, hrun, hrun']

theorem isRun_of_notMem {text : String} (h : ValidToken styles (.static text))
    (hbrace : '{' ∉ text.toList) : IsRun (.static text) := by
  refine h.resolve_left ?_
  rintro rfl
  exact hbrace (by decide)

theorem mergeTexts?_eq_none {token next : Token} (htoken : ValidToken styles token)
    (hnext : ValidToken styles next) (hruns : ¬ (IsRun token ∧ IsRun next)) :
    mergeTexts? token next = none := by
  unfold mergeTexts?
  split
  · rename_i first second
    split
    · rfl
    · rename_i hbraces
      rw [not_or] at hbraces
      exact (hruns ⟨isRun_of_notMem htoken hbraces.1, isRun_of_notMem hnext hbraces.2⟩).elim
  · rfl

theorem ValidTokens.right_of_append {first second : List Token}
    (h : ValidTokens styles (first ++ second)) : ValidTokens styles second := by
  induction first with
  | nil => exact h
  | cons token first ih => exact ih h.2.2

/-- Trees that are well-formed in a row have no texts to join. -/
theorem joinTrees_of_valid {first second : List Token}
    (h : ValidTokens styles (first ++ second)) : joinTrees first second = first ++ second := by
  unfold joinTrees
  split
  · rename_i last next rest hlast
    obtain ⟨before, rfl⟩ := List.getLast?_eq_some_iff.mp hlast
    rw [List.append_assoc] at h
    obtain ⟨hvalid, hruns, hvalid', _⟩ := h.right_of_append
    rw [mergeTexts?_eq_none hvalid hvalid' (hruns next rfl)]
  · rfl

/-- A lexeme that is a token by itself is the last token if it is the last lexeme. -/
theorem exists_derives_of_concat {lexemes : List Lexeme} {lexeme : Lexeme} {tree : List Token}
    {token : Token} (h : Derives (lexemes ++ [lexeme]) tree) (htoken : lexeme.token? = some token) :
    ∃ before, tree = before ++ [token] ∧ Derives lexemes before := by
  rw [← Machine.run_initial_iff, Machine.run_append] at h
  obtain ⟨⟨frames, before⟩, hbefore, hlast⟩ := Option.bind_eq_some_iff.mp h
  rw [Machine.run, Machine.step_of_token? htoken, Option.bind_some, Machine.run] at hlast
  obtain ⟨rfl, rfl⟩ := Machine.mk.inj (Option.some.inj hlast)
  exact ⟨before, rfl, Machine.run_initial_iff.mp hbefore⟩

/-! ## Templates -/

section

variable {first second : String} {tree tree' : List Token}

/-- Two templates in a row are read as the one tree behind the other. -/
theorem parse_append_eq_join (h₁ : parse styles first = .ok tree)
    (h₂ : parse styles second = .ok tree') :
    parse styles (first ++ second) = .ok (joinTrees tree tree') := by
  obtain ⟨lexemes, hscan, hne, hderives⟩ := parse_eq_ok_iff_derives.mp h₁
  obtain ⟨lexemes', hscan', hne', hderives'⟩ := parse_eq_ok_iff_derives.mp h₂
  rw [scan_eq_some_iff] at hscan hscan'
  by_cases htouch : ∃ before run run' after,
      lexemes = before ++ [.text run] ∧ lexemes' = .text run' :: after
  · obtain ⟨before, run, run', after, rfl, rfl⟩ := htouch
    obtain ⟨front, rfl, hfront⟩ := exists_derives_of_concat hderives rfl
    cases hderives' with
    | @leaf _ _ _ back htoken hback =>
        obtain rfl := Option.some.inj htoken
        have hrun : IsPlain run := hscan.scanned.valid (.text run) (by simp)
        have hrun' : IsPlain run' := hscan'.scanned.valid (.text run') (by simp)
        rw [joinTrees_texts hrun.2 hrun'.2, parse_eq_ok_iff_derives, String.toList_append]
        refine ⟨before ++ .text (run ++ run') :: after, ?_, by simp, hfront.append (.leaf rfl hback)⟩
        exact scan_eq_some_iff.mpr (hscan.joined hscan')
  · have hfollows : Follows second.toList lexemes := by
      intro run hrun c hc
      by_contra hbrace
      obtain ⟨before, rfl⟩ := List.getLast?_eq_some_iff.mp hrun
      obtain ⟨run', after, rfl⟩ := hscan'.exists_text hc hbrace
      exact htouch ⟨before, run, run', after, rfl, rfl⟩
    have hparse : parse styles (first ++ second) = .ok (tree ++ tree') := by
      rw [parse_eq_ok_iff_derives, String.toList_append]
      refine ⟨lexemes ++ lexemes', ?_, by simp [hne], hderives.append hderives'⟩
      exact scan_eq_some_iff.mpr ((hscan.before hfollows).append hscan')
    rw [hparse, joinTrees_of_valid (wellFormed_of_parse hparse).2]

theorem parse_text (hne : first ≠ "") (hbrace : '{' ∉ first.toList) :
    parse styles first = .ok [.static first] := by
  have hrun : ∀ c ∈ first.toList, c ≠ '{' := by
    rintro c hc rfl
    exact hbrace hc
  have hscan : Scans styles first.toList [.text (String.ofList first.toList)] [] :=
    scans_text (mt String.toList_eq_nil_iff.mp hne) hrun
  rw [String.ofList_toList] at hscan
  exact parse_eq_ok_iff_derives.mpr
    ⟨[.text first], scan_eq_some_iff.mpr hscan, by simp, .leaf rfl .nil⟩

/-- Behind a template there may be any text without braces. -/
theorem exists_parse_append_text (h : parse styles first = .ok tree) (hbrace : '{' ∉ second.toList) :
    ∃ longer, parse styles (first ++ second) = .ok longer := by
  by_cases hne : second = ""
  · rw [hne, String.append_empty]
    exact ⟨tree, h⟩
  · exact ⟨_, parse_append_eq_join h (parse_text hne hbrace)⟩

/-- And there may be one in front of it. -/
theorem exists_parse_text_append (hbrace : '{' ∉ first.toList) (h : parse styles second = .ok tree) :
    ∃ longer, parse styles (first ++ second) = .ok longer := by
  by_cases hne : first = ""
  · rw [hne, String.empty_append]
    exact ⟨tree, h⟩
  · exact ⟨_, parse_append_eq_join (parse_text hne hbrace) h⟩

/-- A text goes up to the first brace; then tags begin. -/
theorem exists_text_append (text : String) : ∃ run rest : String, text = run ++ rest ∧
    '{' ∉ run.toList ∧ ∀ c ∈ rest.toList.head?, c = '{' := by
  refine ⟨String.ofList (text.toList.takeWhile (· ≠ '{')),
    String.ofList (text.toList.dropWhile (· ≠ '{')), ?_, ?_, ?_⟩
  · rw [← String.ofList_append, List.takeWhile_append_dropWhile, String.ofList_toList]
  · rw [String.toList_ofList]
    exact fun hmem => by simpa using List.mem_takeWhile_imp hmem
  · rw [String.toList_ofList]
    simpa [Stops] using stops_dropWhile (fun c => decide (c ≠ '{')) text.toList

/-- Behind a template and in front of a brace, reading goes on as if it began there. -/
theorem repeats_append_of_parse (h : parse styles first = .ok tree)
    (hbrace : ∀ c ∈ second.toList.head?, c = '{') :
    ∃ place : Cursor, place.rest = second.toList ∧ ∀ more stop,
      Parser.Repeats (token styles) place more stop →
      Parser.Repeats (token styles) ⟨0, (first ++ second).toList⟩ (tree ++ more) stop := by
  obtain ⟨lexemes, hscan, _, hderives⟩ := parse_eq_ok_iff_derives.mp h
  have hbefore := (scan_eq_some_iff.mp hscan).before (follows_of_brace hbrace)
  rw [String.toList_append]
  exact repeats_append_of_derives hderives hbefore

/-- Repetition passes the template that a text begins with and the text behind it up to the next
brace, and goes on from there. -/
theorem exists_repeats_of_append {whole : List Token} {stop : Cursor}
    (h : parse styles first = .ok tree)
    (hwhole : Parser.Repeats (token styles) ⟨0, (first ++ second).toList⟩ whole stop) :
    ∃ (run last : String) (place : Cursor) (more : List Token), second = run ++ last ∧
      '{' ∉ run.toList ∧ place.rest = last.toList ∧
      Parser.Repeats (token styles) place more stop := by
  obtain ⟨run, last, rfl, hrun, hbrace⟩ := exists_text_append second
  obtain ⟨longer, hlonger⟩ := exists_parse_append_text h hrun
  obtain ⟨place, hplace, hgoesOn⟩ := repeats_append_of_parse hlonger hbrace
  have hmore := Parser.repeats_repeatFrom (token styles) place
  rw [← String.append_assoc] at hwhole
  have hsame := (hgoesOn _ _ hmore).eq.symm.trans hwhole.eq
  rw [(Prod.mk.inj hsame).2] at hmore
  exact ⟨run, last, place, _, rfl, hrun, hplace, hmore⟩

end

end ShellPrompt.Template
