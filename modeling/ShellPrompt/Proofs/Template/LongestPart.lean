import ShellPrompt.Proofs.Parser.Advance
import ShellPrompt.Proofs.Template.Joining

/-! # Where reading stops

A template that is not read to its end is read as far as any part of it can be: what has been passed
is the longest template that the text begins with, and the place where reading stops is the first
brace behind it. -/

namespace ShellPrompt.Template

open ShellPrompt.Parser

variable {styles : StyleTable}

/-! ## Tokens go forward -/

theorem advances_blanks : Advances blanks := advances_takeWhile _

theorem advances_identifier : Advances identifier := (advances_takeWhile1 _).verify _

theorem advances_component : Advances component := by
  have hname : Advances componentName :=
    ((advances_tag _).both advances_blanks).preceded (advances_identifier.filterMap _)
  have hoption : Advances option := (advances_takeWhile1 _).preceded
    (((advances_takeWhile1 _).terminated (advances_tag _)).both (advances_takeWhile1 _))
  have hoptions : Advances componentOptions :=
    hoption.many.terminated (advances_blanks.both (advances_tag _))
  exact (hname.both hoptions).map _

theorem advances_style (styles : StyleTable) : Advances (style styles) :=
  ((((advances_tag _).both advances_blanks).preceded (advances_identifier.verify _)).terminated
    (advances_blanks.both (advances_tag _))).map _

theorem advances_conditionalOf {branch : Parser (List Token)} (hbranch : Advances branch) :
    Advances (conditionalOf branch) := by
  have hstart : Advances ifStart := (advances_tag _).both (advances_blanks.both (advances_tag _))
  have hcondition : Advances ifCondition :=
    (advances_blanks.preceded (advances_identifier.filterMap _)).terminated (advances_tag _)
  have helse : Advances (elseBranchOf branch) := (advances_tag _).preceded hbranch
  exact ((hstart.preceded hcondition).both
    (hbranch.both (helse.optional.terminated (advances_tag _)))).map _

theorem advances_tokenOf {inner : Parser Token} (hinner : Advances inner) :
    Advances (tokenOf styles inner) := by
  refine advances_firstOf ?_
  simp only [List.forall_mem_cons, List.not_mem_nil, false_imp_iff, implies_true, and_true]
  exact ⟨(advances_takeWhile1 _).map _, (advances_tag _).map _, advances_style styles,
    advances_conditionalOf hinner.many1, advances_component⟩

theorem advances_token : Advances (token styles) := by
  intro start
  induction hlength : start.rest.length using Nat.strong_induction_on generalizing start with
  | _ length ih =>
      subst hlength
      have hinner : Advances fun inner : Cursor =>
          if inner.rest.length < start.rest.length then token styles inner else none := by
        intro place value stop h
        dsimp only at h
        split at h
        · rename_i hplace
          exact ih _ hplace place rfl value stop h
        · cases h
      intro value stop h
      rw [token] at h
      exact advances_tokenOf hinner start value stop h

/-! ## The longest part -/

/-- Whether a text is a template. -/
def Parses (styles : StyleTable) (text : String) : Prop := ∃ tree, parse styles text = .ok tree

/-- Parts of a text of which the first is the longest template that the text begins with, or empty
where it begins with none. -/
structure LongestPart (styles : StyleTable) (text passed rest : String) : Prop where
  append : text = passed ++ rest
  parses : passed = "" ∨ Parses styles passed
  longest : ∀ other last, text = other ++ last → Parses styles other → other.length ≤ passed.length

section

variable {text passed rest passed' rest' : String} {tree : List Token} {start stop : Cursor}

theorem LongestPart.length_le (h : LongestPart styles text passed rest)
    (h' : LongestPart styles text passed' rest') : passed'.length ≤ passed.length := by
  rcases h'.parses with rfl | hparses
  · exact Nat.zero_le _
  · exact h.longest passed' rest' h'.append hparses

theorem LongestPart.unique (h : LongestPart styles text passed rest)
    (h' : LongestPart styles text passed' rest') : passed = passed' ∧ rest = rest' := by
  have hlength : passed.toList.length = passed'.toList.length :=
    Nat.le_antisymm (h'.length_le h) (h.length_le h')
  have happend : passed.toList ++ rest.toList = passed'.toList ++ rest'.toList := by
    rw [← String.toList_append, ← String.toList_append, ← h.append, ← h'.append]
  obtain ⟨hpassed, hrest⟩ := List.append_inj happend hlength
  exact ⟨String.toList_injective hpassed, String.toList_injective hrest⟩

/-- No template that a text begins with goes beyond the place where repetition stops: behind it, and
behind the text up to the next brace, repetition would go on. -/
theorem length_le_of_repeats (h : Repeats (token styles) ⟨0, text.toList⟩ tree stop)
    (happend : text = passed ++ rest) (hparses : Parses styles passed) :
    stop.rest.length ≤ rest.toList.length := by
  obtain ⟨before, hbefore⟩ := hparses
  rw [happend] at h
  obtain ⟨run, last, place, more, rfl, _, hplace, hmore⟩ := exists_repeats_of_append hbefore h
  have hle := hmore.length_le
  rw [hplace] at hle
  rw [String.toList_append, List.length_append]
  omega

/-- What repetition passes is a template or nothing. -/
theorem parses_of_repeats {chars : List Char} (h : Repeats (token styles) start tree stop)
    (happend : start.rest = chars ++ stop.rest) :
    String.ofList chars = "" ∨ Parses styles (String.ofList chars) := by
  obtain ⟨lexemes, hscan, hderives⟩ := exists_scans_of_repeats h
  obtain ⟨passed, hpassed, hbefore⟩ := hscan.exists_passed
  obtain rfl := List.append_cancel_right (happend.symm.trans hpassed)
  have hscans := hbefore [] (follows_of_brace (by simp))
  rw [List.append_nil] at hscans
  by_cases hne : tree = []
  · subst hne
    cases hderives
    cases hscans
    exact .inl rfl
  · refine .inr ⟨tree, parse_eq_ok_iff_derives.mpr ⟨lexemes, ?_, hne, hderives⟩⟩
    rw [String.toList_ofList]
    exact scan_eq_some_iff.mpr hscans

/-- Repetition passes the longest part, and its position is the length of that part. -/
theorem longestPart_of_repeats (h : Repeats (token styles) ⟨0, text.toList⟩ tree stop) :
    ∃ passed, LongestPart styles text passed (String.ofList stop.rest) ∧
      stop.position = passed.length := by
  obtain ⟨chars, happend, hposition⟩ := h.reads advances_token
  have hlength : text.toList.length = chars.length + stop.rest.length := by
    rw [← List.length_append, ← happend]
  refine ⟨String.ofList chars, ⟨?_, parses_of_repeats h happend, ?_⟩, ?_⟩
  · rw [← String.ofList_append, ← happend, String.ofList_toList]
  · intro other last hother hparses
    have hle := length_le_of_repeats h hother hparses
    have hwhole : text.length = other.length + last.length := by rw [hother, String.length_append]
    simp only [String.length_toList] at hle hlength
    rw [String.length_ofList]
    omega
  · rw [hposition, String.length_ofList]
    exact Nat.zero_add _

/-- A text up to the next brace is a token, so reading stops at a brace only. -/
theorem brace_of_repeats (h : Repeats (token styles) start tree stop) :
    ∀ c ∈ stop.rest.head?, c = '{' := by
  intro c hc
  have hfront := front stop.rest
  generalize hrest : stop.rest = text at hfront hc
  cases hfront with
  | empty => cases hc
  | run hne hrun hbrace =>
      have hnext : next? styles _ = _ := next?_run hne hrun hbrace
      rw [← hrest] at hnext
      obtain ⟨next, rfl, hread⟩ := tokenOf_of_token? (token styles) hnext rfl
      rw [← token_eq] at hread
      have hlt := next?_length_lt hnext
      have hle := h.stopped _ next hread
      omega
  | doubled => exact (Option.some.inj hc).symm
  | tag => exact (Option.some.inj hc).symm
  | unclosed => exact (Option.some.inj hc).symm

/-- An error tells the longest part, and that it ends in front of a brace. -/
theorem longestPart_of_parse {error : ParseError} (h : parse styles text = .error error) :
    (∃ passed, LongestPart styles text passed error.remainder ∧ error.position = passed.length) ∧
      (text ≠ "" → text.toList[error.position]? = some '{') := by
  have hrepeats := repeats_repeatFrom (token styles) ⟨0, text.toList⟩
  generalize repeatFrom (token styles) ⟨0, text.toList⟩ = result at hrepeats
  obtain ⟨tree, stop⟩ := result
  rw [parse_of_repeats hrepeats] at h
  split at h
  · cases h
  · rename_i hpart
    obtain rfl := Except.error.inj h
    obtain ⟨passed, hlongest, hposition⟩ := longestPart_of_repeats hrepeats
    refine ⟨⟨passed, hlongest, hposition⟩, fun hne => ?_⟩
    cases hrest : stop.rest with
    | nil =>
        have htree : tree = [] := by
          by_contra htree
          exact hpart ⟨htree, hrest⟩
        subst htree
        cases hrepeats
        exact (hne (String.toList_eq_nil_iff.mp hrest)).elim
    | cons c chars =>
        obtain rfl := brace_of_repeats hrepeats c (by simp [hrest])
        have happend : text.toList = passed.toList ++ '{' :: chars := by
          rw [hlongest.append, hrest, String.toList_append, String.toList_ofList]
        rw [happend, hposition, ← String.length_toList]
        simp

end

/-- Parsing fails exactly for the texts that are no templates, and it tells the longest part that is
one: its length is the position, and the remainder is what stands behind it. There the text goes on
with a brace, if it is not empty. -/
theorem parse_eq_error_iff_longest (styles : StyleTable) (text : String) :
    (∀ error, parse styles text = .error error ↔ ¬ Parses styles text ∧
      ∃ passed, LongestPart styles text passed error.remainder ∧ error.position = passed.length) ∧
    ∀ error, parse styles text = .error error → text ≠ "" →
      text.toList[error.position]? = some '{' := by
  refine ⟨fun error => ⟨fun h => ⟨?_, (longestPart_of_parse h).1⟩, ?_⟩,
    fun error h => (longestPart_of_parse h).2⟩
  · rintro ⟨tree, hparse⟩
    cases hparse.symm.trans h
  · rintro ⟨hparses, passed, hlongest, hposition⟩
    cases hparse : parse styles text with
    | ok tree => exact (hparses ⟨tree, hparse⟩).elim
    | error other =>
        obtain ⟨⟨passed', hlongest', hposition'⟩, _⟩ := longestPart_of_parse hparse
        obtain ⟨rfl, hremainder⟩ := hlongest.unique hlongest'
        cases error
        cases other
        simp only at hposition hposition' hremainder
        rw [hposition, hposition', hremainder]

end ShellPrompt.Template
