import ShellPrompt.Proofs.Prompt.GitTrouble
import ShellPrompt.Proofs.Prompt.Unforeseen

/-! # Options that are not understood

A template that was read with the keywords at hand is drawn unless there is trouble with git or a
component has options that it does not understand. Because of options, the error names the component
and the options that it means. Of the trouble with git, only failures have an error that says so;
what breaks a run off goes through as it is. -/

namespace ShellPrompt

open Git

namespace Component

/-- The options that an error about a component is to name: the style of the current directory if
there is no such style, and else all options but that style. -/
inductive Blames (name : ComponentName) (options : Options) : Options → Prop where
  | style {value : String} (hname : name = .cwd) (hvalue : options.get? styleKey = some value)
    (hunknown : DirectoryStyle.ofName? value = none) :
    Blames name options (.ofPairs [(styleKey, value)])
  | others {rest : Options}
    (hstyle : name = .cwd → ∀ value, options.get? styleKey = some value →
      (DirectoryStyle.ofName? value).isSome = true)
    (hrest : rest.entries = options.entries.filter fun entry => name ≠ .cwd ∨ entry.1 ≠ styleKey)
    (hsome : rest.entries ≠ []) : Blames name options rest

variable {context : Context} {name : ComponentName} {options : Options} {error : RenderError}

/-! ## Styles of the current directory -/

theorem directoryStyle_eq_error (h : directoryStyle options = .error error) :
    ∃ value, options.get? styleKey = some value ∧ DirectoryStyle.ofName? value = none ∧
      error = .invalidOptions .cwd (.ofPairs [(styleKey, value)]) := by
  rw [directoryStyle] at h
  split at h
  · cases h
  · rename_i hunknown
    cases hvalue : options.get? styleKey with
    | none =>
        rw [hvalue] at hunknown
        cases hunknown
    | some value =>
        rw [hvalue] at h hunknown
        exact ⟨value, rfl, hunknown, (Except.error.inj h).symm⟩

theorem isSome_of_directoryStyle {style : DirectoryStyle} {value : String}
    (h : directoryStyle options = .ok style) (hvalue : options.get? styleKey = some value) :
    (DirectoryStyle.ofName? value).isSome = true := by
  rw [directoryStyle, hvalue] at h
  split at h
  · rename_i hstyle
    rw [Option.getD_some] at hstyle
    rw [hstyle]
    rfl
  · cases h

/-- The options ask for a style that there is, if they are for the current directory. -/
def HasStyle (name : ComponentName) (options : Options) : Prop :=
  name = .cwd → ∃ style, directoryStyle options = .ok style

theorem hasStyle_of_reaches (h : reaches name options = true) : HasStyle name options := by
  rintro rfl
  exact ⟨.short, reaches_cwd_iff.mp h⟩

theorem hasStyle_of_ownText {shown : Option String}
    (h : ownText context name options = .ok shown) : HasStyle name options := by
  rintro rfl
  rw [ownText] at h
  cases hstyle : directoryStyle options with
  | error error =>
      rw [hstyle] at h
      cases h
  | ok style => exact ⟨style, rfl⟩

theorem blames_of_ownText (h : ownText context name options = .error error) :
    ∃ rest, error = .invalidOptions name rest ∧ Blames name options rest := by
  cases name with
  | cwd =>
      rw [ownText] at h
      cases hstyle : directoryStyle options with
      | error cause =>
          rw [hstyle] at h
          obtain ⟨value, hvalue, hunknown, rfl⟩ := directoryStyle_eq_error hstyle
          exact ⟨_, (Except.error.inj h).symm, .style rfl hvalue hunknown⟩
      | ok style =>
          rw [hstyle] at h
          cases h
  | _ => cases h

/-! ## Options that are left -/

theorem entries_left : (left name options).entries =
    options.entries.filter fun entry => name ≠ .cwd ∨ entry.1 ≠ styleKey := by
  cases name with
  | cwd => simp [left, Dictionary.erase]
  | _ => simp [left]

theorem blames_of_slotOf {shown : Option String} (hstyle : HasStyle name options)
    (h : slotOf context name options shown = .error error) :
    ∃ rest, error = .invalidOptions name rest ∧ Blames name options rest := by
  rw [slotOf] at h
  split at h
  · cases h
  · rename_i hleft
    refine ⟨left name options, (Except.error.inj h).symm, .others ?_ entries_left ?_⟩
    · intro hname value hvalue
      obtain ⟨style, hknown⟩ := hstyle hname
      exact isSome_of_directoryStyle hknown hvalue
    · rwa [Dictionary.isEmpty, List.isEmpty_iff] at hleft

theorem understood_of_slotOf {shown : Option String} {slot : Slot} (hstyle : HasStyle name options)
    (h : slotOf context name options shown = .ok slot) : Understood name options := by
  rw [slotOf] at h
  split at h
  · rename_i hleft
    rw [Dictionary.isEmpty, List.isEmpty_iff, entries_left, List.filter_eq_nil_iff] at hleft
    intro entry hentry
    obtain ⟨rfl, hkey⟩ : name = .cwd ∧ entry.1 = styleKey := by
      simpa [not_or] using hleft entry hentry
    obtain ⟨style, hknown⟩ := hstyle rfl
    refine ⟨rfl, hkey, isSome_of_directoryStyle hknown ?_⟩
    rw [← hkey]
    exact Dictionary.get?_eq_some_iff.mpr hentry
  · cases h

end Component

/-! ## Errors of leaves -/

section

variable {α : Type} {context : Context} {access last : Access} {error : RenderError}

/-- A discovery fails because of git. -/
theorem Context.exists_trouble_of_discover (h : context.discover access = (.error error, last)) :
    ∃ trouble, error = .ofTrouble trouble := by
  cases hdiscovery : access.discovery with
  | done repository =>
      rw [discover_of_done hdiscovery] at h
      cases h
  | pending =>
      rw [discover_of_pending hdiscovery] at h
      split at h
      · cases h
      · rename_i trouble _ _
        cases h
        exact ⟨trouble, rfl⟩

/-- A run of git fails because of git. -/
theorem Draw.exists_trouble_of_ofRun {run : Run α} (h : ofRun run access = (.error error, last)) :
    ∃ trouble, error = .ofTrouble trouble := by
  rw [ofRun_run] at h
  cases hresult : (run access.calls).1 with
  | error trouble =>
      rw [hresult] at h
      cases h
      exact ⟨trouble, rfl⟩
  | ok value =>
      rw [hresult] at h
      cases h

namespace Context

variable {name : ComponentName} {options : Options}

/-- While the repository is free, a component fails on its options or because of git. -/
theorem slot_component_eq_error (hfree : access.borrowed = false)
    (h : context.slot (.component name options) access = (.error error, last)) :
    (∃ rest, error = .invalidOptions name rest ∧ Component.Blames name options rest) ∨
      ∃ trouble, error = .ofTrouble trouble := by
  cases hreaches : (Leaf.component name options).reaches with
  | false =>
      rw [slot_of_not_reaches hreaches, ownSlot] at h
      cases hown : Component.ownText context name options with
      | error cause =>
          rw [hown] at h
          cases h
          exact .inl (Component.blames_of_ownText hown)
      | ok shown =>
          rw [hown] at h
          exact .inl (Component.blames_of_slotOf (Component.hasStyle_of_ownText hown)
            (congrArg Prod.fst h))
  | true =>
      rw [slot_of_free hreaches hfree] at h
      rcases Action.bind_eq_error_iff.mp h with hdiscover | ⟨repository, between, _, h⟩
      · exact .inr (exists_trouble_of_discover hdiscover)
      · rcases Action.bind_eq_error_iff.mp h with hfound | ⟨shown, reached, _, h⟩
        · exact .inr (Draw.exists_trouble_of_ofRun hfound)
        · exact .inl (Component.blames_of_slotOf (Component.hasStyle_of_reaches hreaches)
            (congrArg Prod.fst h))

/-- A component that has a slot understands its options. -/
theorem understood_of_slot {slot : Slot} (hfree : access.borrowed = false)
    (h : context.slot (.component name options) access = (.ok slot, last)) :
    Component.Understood name options := by
  cases hreaches : (Leaf.component name options).reaches with
  | false =>
      rw [slot_of_not_reaches hreaches, ownSlot] at h
      cases hown : Component.ownText context name options with
      | error cause =>
          rw [hown] at h
          cases h
      | ok shown =>
          rw [hown] at h
          exact Component.understood_of_slotOf (Component.hasStyle_of_ownText hown)
            (congrArg Prod.fst h)
  | true =>
      rw [slot_of_free hreaches hfree] at h
      obtain ⟨repository, between, _, h⟩ := Action.bind_eq_ok_iff.mp h
      obtain ⟨shown, reached, _, h⟩ := Action.bind_eq_ok_iff.mp h
      exact Component.understood_of_slotOf (Component.hasStyle_of_reaches hreaches)
        (congrArg Prod.fst h)

/-- A leaf whose style is known fails only as a component, on its options or because of git. -/
theorem slot_eq_error {leaf : Leaf} (hfree : access.borrowed = false)
    (hstyle : ∀ name, leaf = .style name → ∃ code, context.styleSequence name = .ok code)
    (h : context.slot leaf access = (.error error, last)) :
    (∃ name options rest, leaf = .component name options ∧ error = .invalidOptions name rest ∧
      Component.Blames name options rest) ∨ ∃ trouble, error = .ofTrouble trouble := by
  cases leaf with
  | text text => cases h
  | style name =>
      obtain ⟨code, hcode⟩ := hstyle name rfl
      rw [slot, styleSlot, hcode] at h
      cases h
  | component name options =>
      rcases slot_component_eq_error hfree h with ⟨rest, herror, hblames⟩ | hgit
      · exact .inl ⟨name, options, rest, rfl, herror, hblames⟩
      · exact .inr hgit

/-- The styles that are drawn of a template that was read are known. -/
theorem exists_styleSequence_of_drawn {custom : Dictionary String String} {template : String}
    {tokens : List Token} (htable : StyleTable.ofSpecs custom = .ok context.styles)
    (hparse : Template.parse context.styles template = .ok tokens) {name : String}
    (h : .style name ∈ context.drawn tokens) : ∃ code, context.styleSequence name = .ok code :=
  exists_styleSequence (StyleTable.exists_sequence htable
    (contains_of_parse hparse (leavesOf_of_drawn context tokens h)))

/-- An evaluation fails at the first leaf that is not drawn, for the reason that this leaf has. -/
theorem exists_leaf_of_evaluate_eq_error {tokens : List Token} (hfree : access.borrowed = false)
    (hstyle : ∀ name, .style name ∈ context.drawn tokens →
      ∃ code, context.styleSequence name = .ok code)
    (h : context.evaluate tokens access = (.error error, last)) :
    ∃ before leaf after slots middle, context.drawn tokens = before ++ leaf :: after ∧
      before.mapM context.slot access = (.ok slots, middle) ∧
      context.slot leaf middle = (.error error, last) ∧
      ((∃ name options rest, leaf = .component name options ∧
        error = .invalidOptions name rest ∧ Component.Blames name options rest) ∨
      ∃ trouble, error = .ofTrouble trouble) := by
  rw [evaluate_eq_mapM] at h
  obtain ⟨before, leaf, after, slots, middle, hdrawn, hbefore, hleaf⟩ :=
    Action.mapM_eq_error_iff.mp h
  have hmem : leaf ∈ context.drawn tokens := by
    rw [hdrawn]
    exact List.mem_append_right _ (List.mem_cons_self ..)
  exact ⟨before, leaf, after, slots, middle, hdrawn, hbefore, hleaf,
    slot_eq_error (free_of_mapM_slot hfree hbefore) (fun name hname => hstyle name (hname ▸ hmem))
      hleaf⟩

/-- A template that was read with the keywords of the context is evaluated unless a component has an
option that it does not understand, git fails, or there is unforeseen trouble, and of the last
exactly what the runs of git bring that are made for it. If options are not understood, the error
names the first component with such an option and the options that are to be blamed. -/
theorem evaluate_of_parse {custom : Dictionary String String} {template : String}
    {tokens : List Token} (htable : StyleTable.ofSpecs custom = .ok context.styles)
    (hparse : Template.parse context.styles template = .ok tokens)
    (hfree : access.borrowed = false) :
    (∀ error, (context.evaluate tokens access).1 = .error error →
      (∃ name rest, error = .invalidOptions name rest) ∨
      (∃ failure, error = .git (.failure failure)) ∨
      ∃ trouble, trouble.Unforeseen ∧ error = .ofTrouble trouble) ∧
    (∀ trouble, trouble.Unforeseen →
      ((context.evaluate tokens access).1 = .error (.ofTrouble trouble) ↔
        RanInto context.git trouble access.calls (context.evaluate tokens access).2.calls)) ∧
    (∀ slots last, context.evaluate tokens access = (.ok slots, last) →
      ∀ name options, .component name options ∈ context.drawn tokens →
        Component.Understood name options) ∧
    ∀ name rest last, context.evaluate tokens access = (.error (.invalidOptions name rest), last) →
      ∃ before options after slots middle,
        context.drawn tokens = before ++ .component name options :: after ∧
        before.mapM context.slot access = (.ok slots, middle) ∧
        context.slot (.component name options) middle =
          (.error (.invalidOptions name rest), last) ∧
        Component.Blames name options rest := by
  have hstyle : ∀ name, .style name ∈ context.drawn tokens →
      ∃ code, context.styleSequence name = .ok code :=
    fun name => exists_styleSequence_of_drawn htable hparse
  refine ⟨fun error h => ?_, (isExposed_evaluate tokens).fails_iff access,
    fun slots last h name options hmem => ?_, fun name rest last h => ?_⟩
  · obtain ⟨_, _, _, _, _, _, _, _, hcause⟩ :=
      exists_leaf_of_evaluate_eq_error hfree hstyle (Prod.ext h rfl)
    rcases hcause with ⟨name, _, rest, _, hoptions, _⟩ | ⟨trouble, rfl⟩
    · exact .inl ⟨name, rest, hoptions⟩
    · rcases trouble.failure_or_unforeseen with ⟨failure, rfl⟩ | htrouble
      · exact .inr (.inl ⟨failure, rfl⟩)
      · exact .inr (.inr ⟨trouble, htrouble, rfl⟩)
  · rw [evaluate_eq_mapM] at h
    obtain ⟨before, _, _, middle, _, _, _, hbefore, hslot⟩ :=
      Action.exists_step_of_mapM_eq_ok h hmem
    exact understood_of_slot (free_of_mapM_slot hfree hbefore) hslot
  · obtain ⟨before, leaf, after, slots, middle, hdrawn, hbefore, hleaf, hcause⟩ :=
      exists_leaf_of_evaluate_eq_error hfree hstyle h
    rcases hcause with ⟨blamed, options, others, rfl, heq, hblames⟩ | ⟨trouble, htrouble⟩
    · cases heq
      exact ⟨before, options, after, slots, middle, hdrawn, hbefore, hleaf, hblames⟩
    · cases trouble <;> cases htrouble

end Context

end

/-- Jobs with an option, which they do not understand. -/
def oddJobs : List Token := [.component .jobs (.ofPairs [("foo", "bar")])]

theorem parse_oddJobs : Template.parse .builtin "\x7bjobs foo=bar\x7d" = .ok oddJobs := by
  have hwritten : Token.serialize oddJobs = "\x7bjobs foo=bar\x7d" := by decide
  have hoption : ∀ pair ∈ (Dictionary.ofPairs [("foo", "bar")]).entries,
      Template.IsKey pair.1 ∧ Template.IsValue pair.2 := by
    intro pair hpair
    obtain rfl := List.mem_singleton.mp hpair
    exact ⟨⟨by decide, List.all_eq_true.mp (by decide)⟩, by decide, List.all_eq_true.mp (by decide)⟩
  have hwell : Template.WellFormed .builtin oddJobs :=
    ⟨by decide, ⟨hoption, fun _ => by decide⟩, by simp, trivial⟩
  rw [← hwritten]
  exact Template.parse_serialize hwell

/-- What is said of the name of a branch that is no text. -/
def latinName : Breakage :=
  .undecodable "'utf-8' codec can't decode byte 0xe9 in position 3: invalid continuation byte"

/-- Git in a repository whose branch has such a name. -/
def latinGit : Behaviour := fun _ call =>
  match call.command with
  | .locate => .finished 0 "/home/alice/.git\nfalse\n" ""
  | .topLevel => .finished 0 "/home/alice\n" ""
  | _ => .broken latinName

theorem evaluate_oddJobs_and_branch :
    StyleTable.ofSpecs .empty = .ok (homeContext latinGit).styles ∧
    (Template.parse (homeContext latinGit).styles "\x7bjobs foo=bar\x7d" = .ok oddJobs ∧
      (homeContext latinGit).evaluate oddJobs {} =
        (.error (.invalidOptions .jobs (.ofPairs [("foo", "bar")])), {}) ∧
      ∃ before options after, (homeContext latinGit).drawn oddJobs =
          before ++ .component .jobs options :: after ∧
        Component.Blames .jobs options (.ofPairs [("foo", "bar")])) ∧
    Template.parse (homeContext latinGit).styles branchTemplate = .ok branchTokens ∧
      RanInto latinGit (.error (.broken latinName)) []
        ((homeContext latinGit).evaluate branchTokens {}).2.calls := by
  have htable : StyleTable.ofSpecs .empty = .ok (homeContext latinGit).styles := rfl
  have hjobs : (homeContext latinGit).evaluate oddJobs {} =
    (.error (.invalidOptions .jobs (.ofPairs [("foo", "bar")])), {}) := rfl
  have hbranch : ((homeContext latinGit).evaluate branchTokens {}).1 =
    .error (.ofTrouble (.error (.broken latinName))) := rfl
  have hfree : ({} : Access).borrowed = false := rfl
  obtain ⟨_, _, _, hoptions⟩ := Context.evaluate_of_parse htable parse_oddJobs hfree
  obtain ⟨before, options, after, _, _, hdrawn, _, _, hblames⟩ := hoptions _ _ _ hjobs
  obtain ⟨_, htrouble, _⟩ := Context.evaluate_of_parse htable parse_branchTemplate hfree
  exact ⟨htable, ⟨parse_oddJobs, hjobs, before, options, after, hdrawn, hblames⟩,
    parse_branchTemplate, (htrouble _ (.broken latinName)).mp hbranch⟩

/-- The name of the branch is not left out, as it would be if git failed, and what keeps it from
being shown is not said to be trouble with git. -/
theorem evaluate_branch_latinGit :
    StyleTable.ofSpecs .empty = .ok (homeContext latinGit).styles ∧
    Template.parse (homeContext latinGit).styles branchTemplate = .ok branchTokens ∧
    ((homeContext latinGit).evaluate branchTokens {}).1 = .error (.git (.broken latinName)) ∧
    ¬ ((∃ slots, ((homeContext latinGit).evaluate branchTokens {}).1 = .ok slots) ∨
      (∃ name rest,
        ((homeContext latinGit).evaluate branchTokens {}).1 = .error (.invalidOptions name rest)) ∨
      ∃ failure,
        ((homeContext latinGit).evaluate branchTokens {}).1 = .error (.git (.failure failure))) := by
  have hevaluate : ((homeContext latinGit).evaluate branchTokens {}).1 =
    .error (.git (.broken latinName)) := rfl
  refine ⟨rfl, parse_branchTemplate, hevaluate, ?_⟩
  rw [hevaluate]
  rintro (⟨slots, h⟩ | ⟨name, rest, h⟩ | ⟨failure, h⟩) <;> cases h

end ShellPrompt
