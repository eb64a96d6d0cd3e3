import ShellPrompt.Proofs.Fragment.Squash
import ShellPrompt.Proofs.Prompt.Shown
import ShellPrompt.Proofs.Shell.Literal
import ShellPrompt.Proofs.Template.RoundTrip

/-! # Values in a prompt

When a shell reads what components show in a prompt literally, and when it does not. Escape
sequences and other values do no harm in front of a value; text of the template does if it ends in
the middle of a unit. -/

namespace ShellPrompt

/-! ## Prompts as they are written -/

/-- The characters of some fragments as the shell is given them. -/
def Context.written (context : Context) (fragments : List Fragment) : List Char :=
  (Fragment.render (fragments.map (Fragment.escaped context.shell))).toList

section

variable {context : Context}

theorem written_cons (fragment : Fragment) (fragments : List Fragment) :
    context.written (fragment :: fragments) =
      (fragment.escaped context.shell).content.toList ++ context.written fragments :=
  String.toList_append

theorem written_append (first second : List Fragment) :
    context.written (first ++ second) = context.written first ++ context.written second := by
  induction first with
  | nil => rfl
  | cons fragment first ih =>
      rw [List.cons_append, written_cons, written_cons, ih, List.append_assoc]

theorem written_value (before after : List Fragment) (text : String) :
    context.written (before ++ .value text :: after) = context.written before ++
      ((context.shell.escape text).toList ++ context.written after) := by
  rw [written_append, written_cons]
  rfl

/-! ## Escape sequences in a prompt -/

/-- What is known of the escape sequence in a fragment: a keyword stands for it. -/
def Fragment.Coded (context : Context) : Fragment → Prop
  | .start code | .reset code => ∃ name, context.styleSequence name = .ok code
  | .text _ | .value _ => True

theorem coded_of_styleSlot {name : String} {fragment : Fragment}
    (h : context.styleSlot name = .ok (some fragment)) : fragment.Coded context := by
  unfold Context.styleSlot at h
  cases hcode : context.styleSequence name with
  | error error =>
      rw [hcode] at h
      cases h
  | ok code =>
      rw [hcode] at h
      have hfragment := Option.some.inj (Except.ok.inj h)
      by_cases hname : name = StyleTable.resetName
      · rw [if_pos hname] at hfragment
        subst hfragment
        exact ⟨name, hcode⟩
      · rw [if_neg hname] at hfragment
        subst hfragment
        exact ⟨name, hcode⟩

theorem coded_of_component {name : ComponentName} {options : Options} {access next : Access}
    {fragment : Fragment}
    (h : Component.plain context name options access = (.ok (some fragment), next)) :
    fragment.Coded context := by
  rw [Component.plain] at h
  obtain ⟨⟨shown, left⟩, between, _, h⟩ := Action.bind_eq_ok_iff.mp h
  dsimp only at h
  split at h
  · obtain ⟨hslot, _⟩ := Prod.mk.inj h
    obtain ⟨text, _, rfl⟩ := Option.map_eq_some_iff.mp (Except.ok.inj hslot)
    trivial
  · cases h

mutual

theorem coded_of_plainToken : ∀ {token : Token} {access next : Access} {slots : List Slot},
    context.plainToken token access = (.ok slots, next) →
    ∀ fragment, some fragment ∈ slots → fragment.Coded context
  | .static text, _, _, _, h, fragment, hfragment => by
      cases h
      obtain rfl := Option.some.inj (List.mem_singleton.mp hfragment)
      trivial
  | .style name, _, _, _, h, fragment, hfragment => by
      rw [Context.plainToken_style] at h
      obtain ⟨slot, between, hslot, h⟩ := Action.bind_eq_ok_iff.mp h
      cases h
      obtain rfl := List.mem_singleton.mp hfragment
      exact coded_of_styleSlot (Prod.mk.inj hslot).1
  | .component name options, _, _, _, h, fragment, hfragment => by
      rw [Context.plainToken_component] at h
      obtain ⟨slot, between, hslot, h⟩ := Action.bind_eq_ok_iff.mp h
      cases h
      obtain rfl := List.mem_singleton.mp hfragment
      exact coded_of_component hslot
  | .conditional condition left right, _, _, _, h, fragment, hfragment => by
      rw [Context.plainToken_conditional] at h
      split at h
      · exact coded_of_plain h fragment hfragment
      · exact coded_of_plainElse h fragment hfragment

theorem coded_of_plain : ∀ {tokens : List Token} {access next : Access} {slots : List Slot},
    context.plain tokens access = (.ok slots, next) →
    ∀ fragment, some fragment ∈ slots → fragment.Coded context
  | [], _, _, _, h, fragment, hfragment => by
      cases h
      simp at hfragment
  | token :: rest, _, _, _, h, fragment, hfragment => by
      rw [Context.plain_cons] at h
      obtain ⟨first, between, hfirst, h⟩ := Action.bind_eq_ok_iff.mp h
      obtain ⟨others, last, hothers, h⟩ := Action.bind_eq_ok_iff.mp h
      cases h
      rcases List.mem_append.mp hfragment with hfragment | hfragment
      · exact coded_of_plainToken hfirst fragment hfragment
      · exact coded_of_plain hothers fragment hfragment

theorem coded_of_plainElse : ∀ {tokens : Option (List Token)} {access next : Access}
    {slots : List Slot}, context.plainElse tokens access = (.ok slots, next) →
    ∀ fragment, some fragment ∈ slots → fragment.Coded context
  | none, _, _, _, h, fragment, hfragment => by
      cases h
      simp at hfragment
  | some tokens, _, _, _, h, fragment, hfragment =>
      coded_of_plain h fragment hfragment

end

/-! ## What may stand in front of a value -/

theorem settled_styleSequence {name code : String} (h : context.styleSequence name = .ok code) :
    context.shell.settled code.toList = true := by
  unfold Context.styleSequence at h
  split at h
  · cases hsequence : context.styles.sequence name with
    | error error =>
        rw [hsequence] at h
        cases h
    | ok sequence =>
        rw [hsequence] at h
        obtain rfl := Except.ok.inj h
        exact Shell.settled_wrap (StyleTable.isCode_sequence hsequence)
  · obtain rfl := Except.ok.inj h
    rfl

theorem settled_fragment {fragment : Fragment} (hcoded : fragment.Coded context)
    (htext : ∀ text, fragment = .text text →
      Even (context.shell.openMarks text.toList).length) :
    context.shell.settled (fragment.escaped context.shell).content.toList = true := by
  cases fragment with
  | text text => exact Shell.settled_iff_even.mpr (htext text rfl)
  | start code =>
      obtain ⟨name, hname⟩ := hcoded
      exact settled_styleSequence hname
  | reset code =>
      obtain ⟨name, hname⟩ := hcoded
      exact settled_styleSequence hname
  | value text => exact Shell.settled_escape context.shell text

/-- Where no text ends in the middle of a unit, the prompt does not either. -/
theorem settled_written {fragments : List Fragment}
    (hcoded : ∀ fragment ∈ fragments, fragment.Coded context)
    (htext : ∀ text, .text text ∈ fragments →
      Even (context.shell.openMarks text.toList).length) :
    context.shell.settled (context.written fragments) = true := by
  induction fragments with
  | nil => rfl
  | cons fragment fragments ih =>
      obtain ⟨hfragment, hrest⟩ := List.forall_mem_cons.mp hcoded
      have hfirst := settled_fragment hfragment fun text heq =>
        htext text (heq ▸ List.mem_cons_self ..)
      rw [written_cons, Shell.settled_append hfirst]
      exact ih hrest fun text hmem => htext text (List.mem_cons_of_mem _ hmem)

theorem coded_of_staying {tokens : List Token} {access next : Access} {fragments : List Fragment}
    (h : context.staying tokens access = (.ok fragments, next)) :
    ∀ fragment ∈ fragments, fragment.Coded context := by
  rw [Context.staying] at h
  obtain ⟨slots, hslots, rfl⟩ := Action.map_eq_ok_iff.mp h
  intro fragment hfragment
  exact coded_of_plain hslots fragment (Segment.mem_of_mem_squash hfragment)

end

/-! ## Reading a whole prompt -/

/-- A value that stays in a prompt is read as the text of its component exactly if the prompt in
front of it ends with an even number of marks, or if the text is empty. That is so for all values
when every text that stays ends with an even number of marks: neither escape sequences nor other
values do any harm. -/
theorem readsLiterally_iff_of_render {context : Context} {tokens : List Token}
    {access next : Access} {output : String}
    (h : context.render tokens access = (.ok output, next)) :
    ∃ fragments, context.staying tokens access = (.ok fragments, next) ∧
      (∀ before text after, fragments = before ++ .value text :: after →
        output.toList = context.written before ++
          ((context.shell.escape text).toList ++ context.written after) ∧
        (context.shell.ReadsLiterally (context.written before) (context.shell.escape text).toList
            (context.written after) text ↔
          text = "" ∨ Even (context.shell.openMarks (context.written before)).length)) ∧
      ((∀ text, .text text ∈ fragments →
          Even (context.shell.openMarks text.toList).length) →
        ∀ before text after, fragments = before ++ .value text :: after →
          context.shell.ReadsLiterally (context.written before)
            (context.shell.escape text).toList (context.written after) text) := by
  rw [Context.render_eq_staying] at h
  obtain ⟨fragments, hfragments, rfl⟩ := Action.map_eq_ok_iff.mp h
  refine ⟨fragments, hfragments, ?_, ?_⟩
  · rintro before text after rfl
    exact ⟨written_value before after text, Shell.readsLiterally_escape_iff⟩
  · rintro htext before text after rfl
    have hcoded := coded_of_staying hfragments
    refine Shell.readsLiterally_escape_iff.mpr (.inr (Shell.settled_iff_even.mp ?_))
    exact settled_written (fun fragment hmem => hcoded fragment (List.mem_append_left _ hmem))
      fun text hmem => htext text (List.mem_append_left _ hmem)

/-- A context for Bash in which little is known but the number of jobs. -/
def jobsContext (jobs : String) : Context where
  currentDir := ⟨.single, [], by simp⟩
  jobs := some jobs
  styles := ⟨.empty⟩
  gitTimeout := .infinite false
  git := fun _ _ => .timedOut
  hostName := ""
  login := none

theorem readsLiterally_jobs :
    (jobsContext "$1").render [.component .jobs .empty] {} = (.ok "\\$1", {}) ∧
    ∃ fragments, (jobsContext "$1").staying [.component .jobs .empty] {} = (.ok fragments, {}) ∧
      ∀ before text after, fragments = before ++ .value text :: after →
        (Shell.bash.ReadsLiterally ((jobsContext "$1").written before)
            (Shell.bash.escape text).toList ((jobsContext "$1").written after) text ↔
          text = "" ∨ Even (Shell.bash.openMarks ((jobsContext "$1").written before)).length) := by
  have h : (jobsContext "$1").render [.component .jobs .empty] {} = (.ok "\\$1", {}) := by
    rfl
  obtain ⟨fragments, hfragments, hvalues, _⟩ := readsLiterally_iff_of_render h
  exact ⟨h, fragments, hfragments, fun before text after heq => (hvalues before text after heq).2⟩

/-- Behind a backslash of the template, the first backslash of an escaped value is taken as its
second character, and the shell expands what comes next. -/
theorem not_readsLiterally_behind_backslash :
    Template.parse ⟨.empty⟩ "\\\x7bjobs\x7d" = .ok [.static "\\", .component .jobs .empty] ∧
    (jobsContext "$(id)").render [.static "\\", .component .jobs .empty] {} =
      (.ok "\\\\$(id)", {}) ∧
    (jobsContext "$(id)").staying [.static "\\", .component .jobs .empty] {} =
      (.ok [.text "\\", .value "$(id)"], {}) ∧
    ¬ Shell.bash.ReadsLiterally ((jobsContext "$(id)").written [.text "\\"])
      (Shell.bash.escape "$(id)").toList ((jobsContext "$(id)").written []) "$(id)" ∧
    Shell.bash.units id "\\\\$(id)".toList =
      [['\\', '\\'], ['$'], ['('], ['i'], ['d'], [')']] ∧
    Shell.bash.shown? ['$'] = none := by
  refine ⟨?_, rfl, rfl, by decide, by decide, by decide⟩
  have hwritten : Token.serialize [.static "\\", .component .jobs .empty] = "\\\x7bjobs\x7d" := by
    decide
  have hwell : Template.WellFormed ⟨.empty⟩ [.static "\\", .component .jobs .empty] := by
    refine ⟨by simp, .inr ⟨by decide, by decide⟩, ?_, ⟨by simp, fun _ => by decide⟩, by simp,
      trivial⟩
    rintro next hnext ⟨_, hrun⟩
    obtain rfl := Option.some.inj hnext
    exact hrun
  rw [← hwritten]
  exact Template.parse_serialize hwell

end ShellPrompt
