import ShellPrompt.Proofs.Git.Unforeseen
import ShellPrompt.Proofs.Prompt.Borrow
import ShellPrompt.Proofs.Style.Table
import ShellPrompt.Proofs.Template.RoundTrip

/-! # Prompts and trouble with git

As long as every run of git ends, cannot be started or takes too long, a prompt without `git_status`
is drawn, with nothing in the place of what git does not tell. There is one exception: a discovery
fails if git can be run for its first question and not for its second, and then there is no
prompt. -/

namespace ShellPrompt

open Git

/-- A leaf that nothing but a discovery can keep from being drawn. -/
def Leaf.Robust (context : Context) : Leaf → Prop
  | .text _ => True
  | .style name => ∃ code, context.styles.sequence name = .ok code
  | .component name options => name ≠ .gitStatus ∧ Component.Understood name options

/-- The command by which a component asks about a repository, for those that show nothing where it
fails. -/
def Component.asks : ComponentName → Option Command
  | .gitBranch => some .branchName
  | .gitCommit => some .shortCommit
  | .gitStash => some .stashList
  | _ => none

namespace Component

variable {context : Context} {name : ComponentName}

/-- A component other than `git_status` copes with all that orderly git does. -/
theorem exists_found (hgit : Orderly context.git) (hname : name ≠ .gitStatus)
    (repository : Option Repository) (calls : List Call) :
    ∃ shown last, found context name repository calls = (.ok shown, last) := by
  have hquestion : ∀ repository command read, ∃ shown last,
      question context repository command read calls = (.ok shown, last) := by
    intro repository command read
    obtain ⟨shown, hshown⟩ := attempt_eq_ok hgit
    exact ⟨shown, _, hshown⟩
  cases name with
  | cwd => exact ⟨_, _, rfl⟩
  | gitStatus => exact (hname rfl).elim
  | gitStash =>
      cases repository with
      | none => exact ⟨_, _, rfl⟩
      | some repository =>
          rw [found]
          split
          · exact ⟨_, _, rfl⟩
          · exact hquestion repository _ _
  | gitBranch | gitCommit =>
      cases repository with
      | none => exact ⟨_, _, rfl⟩
      | some repository => exact hquestion repository _ _
  | _ => exact ⟨_, _, rfl⟩

theorem stashText_of_refused {reply : Finished} (h : reply.status ≠ 0) :
    stashText (stashCount? reply) = none := by
  rw [stashCount?, if_neg h]
  rfl

/-- A component shows nothing where there is no repository and where its question fails. -/
theorem found_of_fails {repository : Option Repository} {command : Command} {calls : List Call}
    (hasks : asks name = some command)
    (hfails : ∀ r ∈ repository, (context.git calls ⟨command, r.path, r.timeout⟩).Fails) :
    ∃ last, found context name repository calls = (.ok none, last) := by
  cases repository with
  | none =>
      cases name with
      | gitBranch | gitCommit | gitStash => exact ⟨_, rfl⟩
      | _ => cases hasks
  | some repository =>
      have hfails := hfails repository rfl
      cases name with
      | gitBranch | gitCommit =>
          obtain rfl := Option.some.inj hasks
          exact ⟨_, attempt_of_fails hfails fun _ => answer?_of_refused⟩
      | gitStash =>
          obtain rfl := Option.some.inj hasks
          rw [found]
          split
          · exact ⟨_, rfl⟩
          · exact ⟨_, attempt_of_fails hfails fun _ => stashText_of_refused⟩
      | _ => cases hasks

end Component

namespace Context

variable {context : Context} {leaf : Leaf} {access : Access}

theorem exists_ownSlot (h : leaf.Robust context) : ∃ slot, context.ownSlot leaf = .ok slot := by
  cases leaf with
  | text text => exact ⟨_, rfl⟩
  | style name =>
      obtain ⟨code, hcode⟩ := exists_styleSequence h
      rw [ownSlot, styleSlot, hcode]
      exact ⟨_, rfl⟩
  | component name options =>
      obtain ⟨shown, hshown⟩ := h.2.exists_ownText context
      rw [ownSlot, hshown]
      exact ⟨_, h.2.slotOf_eq shown⟩

/-- What a discovery comes to from the state of an access. -/
theorem discover_ok_or_stuck (hgit : Orderly context.git) (access : Access) :
    (∃ repository calls, context.discover access =
      (.ok repository, { access with calls, discovery := .done repository })) ∨
    (access.discovery = .pending ∧ ∃ failure calls,
      Stuck context.git context.currentDir context.gitTimeout access.calls failure ∧
      context.discover access = (.error (.git (.failure failure)), { access with calls })) := by
  cases h : access.discovery with
  | done repository =>
      refine .inl ⟨repository, access.calls, ?_⟩
      rw [discover_of_done h, ← h]
  | pending =>
      rcases discover_cases hgit with ⟨repository, last, hdiscover⟩ | ⟨failure, last, hstuck, hdiscover⟩
      · refine .inl ⟨repository, last, ?_⟩
        rw [discover_of_pending h, hdiscover]
      · refine .inr ⟨rfl, failure, last, hstuck, ?_⟩
        rw [discover_of_pending h, hdiscover, ← h]
        rfl

/-- The slot of a leaf that reaches the repository. -/
theorem slot_of_discover {name : ComponentName} {options : Options} {next : Access}
    {repository : Option Repository} {shown : Option String} {last : List Call}
    (hreaches : Component.reaches name options = true) (hfree : access.borrowed = false)
    (hoptions : Component.Understood name options)
    (hdiscover : context.discover access = (.ok repository, next))
    (hfound : Component.found context name repository next.calls = (.ok shown, last)) :
    context.slot (.component name options) access =
      (.ok (shown.map fun text => .value (context.shell.escape text)), { next with calls := last }) := by
  rw [slot_of_free hreaches hfree, Action.bind_run, hdiscover]
  dsimp only
  rw [Action.bind_run, Draw.ofRun_run, hfound]
  simp only [Except.mapError, Action.ofExcept_run, hoptions.slotOf_eq]

/-- A leaf is drawn, and the access stays free, unless git is stuck when the repository has to be
looked for. -/
theorem slot_ok_or_stuck (hgit : Orderly context.git) (hleaf : leaf.Robust context)
    (hfree : access.borrowed = false) :
    (∃ slot next, context.slot leaf access = (.ok slot, next) ∧ next.borrowed = false ∧
      (leaf.reaches = false → next = access) ∧
      (leaf.reaches = true → next.discovery ≠ .pending)) ∨
    (leaf.reaches = true ∧ access.discovery = .pending ∧ ∃ failure next,
      Stuck context.git context.currentDir context.gitTimeout access.calls failure ∧
      context.slot leaf access = (.error (.git (.failure failure)), next)) := by
  cases hreaches : leaf.reaches with
  | false =>
      obtain ⟨slot, hslot⟩ := exists_ownSlot hleaf
      refine .inl ⟨slot, access, ?_, hfree, by simp, by simp⟩
      rw [slot_of_not_reaches hreaches, hslot]
      rfl
  | true =>
      obtain ⟨name, options, rfl⟩ := Leaf.exists_component hreaches
      rcases discover_ok_or_stuck hgit access with
        ⟨repository, calls, hdiscover⟩ | ⟨hpending, failure, calls, hstuck, hdiscover⟩
      · obtain ⟨shown, last, hfound⟩ := Component.exists_found hgit hleaf.1 repository calls
        have hslot := slot_of_discover hreaches hfree hleaf.2 hdiscover hfound
        exact .inl ⟨_, _, hslot, hfree, by simp, by simp⟩
      · refine .inr ⟨rfl, hpending, failure, { access with calls }, hstuck, ?_⟩
        rw [slot_of_free hreaches hfree, Action.bind_run, hdiscover]

theorem discover_of_stuck {failure : Failure} (hpending : access.discovery = .pending)
    (h : Stuck context.git context.currentDir context.gitTimeout access.calls failure) :
    ∃ next, context.discover access = (.error (.git (.failure failure)), next) := by
  have hdiscover := discover_eq_failure_iff.mpr h
  rw [discover_of_pending hpending]
  rcases hrun : Repository.discover context.git context.currentDir context.gitTimeout
    access.calls with ⟨_ | _, calls⟩
  · rw [hrun] at hdiscover
    obtain rfl := Except.error.inj hdiscover
    exact ⟨_, rfl⟩
  · rw [hrun] at hdiscover
    cases hdiscover

/-- That git is stuck shows in the first leaf that reaches the repository. -/
theorem slot_eq_error_iff (hgit : Orderly context.git) (hleaf : leaf.Robust context)
    (hfree : access.borrowed = false) (error : RenderError) :
    (context.slot leaf access).1 = .error error ↔ leaf.reaches = true ∧
      access.discovery = .pending ∧ ∃ failure, error = .git (.failure failure) ∧
        Stuck context.git context.currentDir context.gitTimeout access.calls failure := by
  constructor
  · intro h
    rcases slot_ok_or_stuck hgit hleaf hfree with
      ⟨slot, next, hslot, _⟩ | ⟨hreaches, hpending, failure, next, hstuck, hslot⟩
    · rw [hslot] at h
      cases h
    · rw [hslot] at h
      exact ⟨hreaches, hpending, failure, (Except.error.inj h).symm, hstuck⟩
  · rintro ⟨hreaches, hpending, failure, rfl, hstuck⟩
    obtain ⟨name, options, rfl⟩ := Leaf.exists_component hreaches
    obtain ⟨next, hdiscover⟩ := discover_of_stuck hpending hstuck
    rw [slot_of_free hreaches hfree, Action.bind_run, hdiscover]

/-- That git is stuck is the only thing that keeps leaves from being drawn. -/
theorem mapM_slot_eq_error_iff (hgit : Orderly context.git) {leaves : List Leaf}
    (hleaves : ∀ leaf ∈ leaves, leaf.Robust context) (hfree : access.borrowed = false)
    (error : RenderError) : (leaves.mapM context.slot access).1 = .error error ↔
      (∃ leaf ∈ leaves, leaf.reaches = true) ∧ access.discovery = .pending ∧
        ∃ failure, error = .git (.failure failure) ∧
          Stuck context.git context.currentDir context.gitTimeout access.calls failure := by
  induction leaves generalizing access with
  | nil =>
      constructor
      · intro h
        cases h
      · rintro ⟨⟨leaf, hmem, _⟩, _⟩
        cases hmem
  | cons leaf rest ih =>
      obtain ⟨hleaf, hrest⟩ := List.forall_mem_cons.mp hleaves
      have hfirst := slot_eq_error_iff hgit hleaf hfree error
      rw [List.mapM_cons, Action.bind_run, List.exists_mem_cons_iff]
      rcases slot_ok_or_stuck hgit hleaf hfree with
        ⟨slot, next, hslot, hnext, hsame, hknown⟩ | ⟨hreaches, _, failure, next, _, hslot⟩
      · rw [hslot] at hfirst ⊢
        dsimp only
        rw [bind_pure_comp, Action.map_eq_error_iff, ih hrest hnext]
        cases hreaches : leaf.reaches with
        | false =>
            rw [hsame hreaches]
            simp
        | true =>
            -- The repository is known by now, and would not be if git were stuck.
            constructor
            · exact fun h => (hknown hreaches h.2.1).elim
            · exact fun h => by cases hfirst.mpr ⟨hreaches, h.2⟩
      · rw [hslot] at hfirst ⊢
        rw [Except.error.injEq] at hfirst ⊢
        rw [hfirst]
        simp [hreaches]

/-! ## What is drawn instead -/

/-- What happens from the state of an access when git fails. If it fails the first question of a
discovery, there is no repository, and if it refuses the second there is no working tree. The
components that show what git says show nothing without a repository and if it fails their question,
and the short form of the current directory is the default one without a working tree. -/
structure FallsBack (context : Context) (access : Access) : Prop where
  unlocated : access.discovery = .pending →
    (context.git access.calls (locateCall context.currentDir context.gitTimeout)).Fails →
    ∃ next, context.repository access = (.ok none, next)
  unrooted : ∀ gitDir status output errors, access.discovery = .pending →
    located context.git context.currentDir context.gitTimeout access.calls =
      .ok (some (gitDir, false)) →
    rootReply context.git context.currentDir context.gitTimeout access.calls =
      .finished status output errors → status ≠ 0 →
    ∃ next, context.repository access =
      (.ok (some ⟨gitDir, none, context.gitTimeout⟩), next)
  absent : ∀ name options command repository next, Component.Understood name options →
    Component.asks name = some command →
    context.repository access = (.ok repository, next) →
    (∀ r ∈ repository, (context.git next.calls ⟨command, r.path, r.timeout⟩).Fails) →
    (context.slot (.component name options) access).1 = .ok none
  unshortened : ∀ options repository next, Component.Understood .cwd options →
    options.get? Component.styleKey = some DirectoryStyle.short.name →
    context.repository access = (.ok repository, next) →
    repository.bind Repository.workdir = none →
    (context.slot (.component .cwd options) access).1 =
      (context.slot (.component .cwd .empty) access).1

theorem reaches_of_asks {name : ComponentName} {options : Options} {command : Command}
    (h : Component.asks name = some command) : Component.reaches name options = true := by
  cases name with
  | gitBranch | gitCommit | gitStash => rfl
  | _ => cases h

theorem fallsBack_of_free (hfree : access.borrowed = false) : context.FallsBack access := by
  constructor
  · intro hpending hfails
    have hlocated : located context.git context.currentDir context.gitTimeout access.calls =
        .ok none := hfails.answer_eq fun _ => location?_of_refused
    rw [repository_of_free hfree, discover_of_pending hpending, discover_eq, hlocated]
    exact ⟨_, rfl⟩
  · intro gitDir status output errors hpending hlocated hreply hstatus
    rw [repository_of_free hfree, discover_of_pending hpending, discover_eq, hlocated]
    have hroot : Repository.workdirOf ⟨status, output, errors⟩ = none :=
      workdirOf_of_refused hstatus
    simp only [hreply, Reply.result, Except.map, hroot]
    exact ⟨_, rfl⟩
  · intro name options command repository next hoptions hasks hrepository hfails
    rw [repository_of_free hfree] at hrepository
    obtain ⟨last, hfound⟩ := Component.found_of_fails hasks hfails
    rw [slot_of_discover (reaches_of_asks hasks) hfree hoptions hrepository hfound]
    rfl
  · intro options repository next hoptions hshort hrepository hrootless
    rw [repository_of_free hfree] at hrepository
    have hreaches : Component.reaches .cwd options = true := decide_eq_true hshort
    have hshown : Component.shortDirectory context repository =
        context.currentDir.displayed context.homeDir := by
      rw [Component.shortDirectory, hrootless]
    rw [slot_of_discover hreaches hfree hoptions hrepository rfl, hshown]
    rfl

end Context

/-! ## Prompts -/

theorem robust_of_parse {context : Context} {custom : Dictionary String String} {template : String}
    {tokens : List Token} (htable : StyleTable.ofSpecs custom = .ok context.styles)
    (hparse : Template.parse context.styles template = .ok tokens)
    (hcomponents : ∀ name options, .component name options ∈ Token.leavesOf tokens →
      name ≠ .gitStatus ∧ Component.Understood name options) :
    ∀ leaf ∈ Token.leavesOf tokens, leaf.Robust context := by
  intro leaf hleaf
  cases leaf with
  | text text => trivial
  | style name => exact StyleTable.exists_sequence htable (contains_of_parse hparse hleaf)
  | component name options => exact hcomponents name options hleaf

/-- A prompt without `git_status` whose options are understood is drawn whatever orderly git does,
unless the repository has to be looked for and git is stuck then. Leaf by leaf, what git fails to
tell is left out or done without. -/
theorem render_eq_error_iff_stuck {context : Context} {custom : Dictionary String String}
    {template : String} {tokens : List Token} {access : Access}
    (htable : StyleTable.ofSpecs custom = .ok context.styles)
    (hparse : Template.parse context.styles template = .ok tokens)
    (hcomponents : ∀ name options, .component name options ∈ Token.leavesOf tokens →
      name ≠ .gitStatus ∧ Component.Understood name options)
    (hgit : Orderly context.git) (hfree : access.borrowed = false) :
    (∀ error, (context.render tokens access).1 = .error error ↔
      (∃ leaf ∈ context.drawn tokens, leaf.reaches = true) ∧ access.discovery = .pending ∧
        ∃ failure, error = .git (.failure failure) ∧
          Stuck context.git context.currentDir context.gitTimeout access.calls failure) ∧
    context.evaluate tokens = (context.drawn tokens).mapM context.slot ∧
    ∀ before after slots reached, context.drawn tokens = before ++ after →
      before.mapM context.slot access = (.ok slots, reached) →
      reached.borrowed = false ∧ context.FallsBack reached := by
  refine ⟨fun error => ?_, context.evaluate_eq_mapM tokens, ?_⟩
  · have hrobust := robust_of_parse htable hparse hcomponents
    rw [Context.render_eq_map, Action.map_eq_error_iff]
    exact Context.mapM_slot_eq_error_iff hgit
      (fun leaf hleaf => hrobust leaf (context.leavesOf_of_drawn tokens hleaf)) hfree error
  · intro before after slots reached _ hreached
    have hlast := Context.free_of_mapM_slot hfree hreached
    exact ⟨hlast, Context.fallsBack_of_free hlast⟩

/-- A context in the home directory with the built-in keywords. -/
def homeContext (git : Behaviour) : Context where
  currentDir := .ofString "/home/alice"
  homeDir := some (.ofString "/home/alice")
  gitTimeout := .ofInt 2
  git := git
  hostName := "host"
  login := none

/-- A template with the branch only. -/
def branchTemplate : String := "\x7bgit_branch\x7d"

/-- The tree of this template. -/
def branchTokens : List Token := [.component .gitBranch .empty]

theorem parse_branchTemplate : Template.parse .builtin branchTemplate = .ok branchTokens := by
  have hwritten : Token.serialize branchTokens = branchTemplate := by decide
  have hwell : Template.WellFormed .builtin branchTokens :=
    ⟨by decide, ⟨by simp, fun _ => by decide⟩, by simp, trivial⟩
  rw [← hwritten]
  exact Template.parse_serialize hwell

theorem understood_branchTokens : ∀ name options,
    .component name options ∈ Token.leavesOf branchTokens →
      name ≠ .gitStatus ∧ Component.Understood name options := by
  intro name options hleaf
  obtain ⟨rfl, rfl⟩ : name = .gitBranch ∧ options = .empty := by
    simpa [branchTokens, Token.leavesOf, Token.leaves] using hleaf
  exact ⟨by decide, fun entry hentry => by cases hentry⟩

/-- Git that is not installed. -/
def missingGit : Behaviour := fun _ _ => .notStarted "No such file or directory"

theorem render_ne_error_missingGit :
    StyleTable.ofSpecs .empty = .ok (homeContext missingGit).styles ∧
    Template.parse (homeContext missingGit).styles branchTemplate = .ok branchTokens ∧
    Orderly missingGit ∧
    ∀ error, ((homeContext missingGit).render branchTokens {}).1 ≠ .error error := by
  have htable : StyleTable.ofSpecs .empty = .ok (homeContext missingGit).styles := rfl
  have hgit : Orderly (homeContext missingGit).git := fun _ _ => rfl
  have hfree : ({} : Access).borrowed = false := rfl
  have hrender := (render_eq_error_iff_stuck htable parse_branchTemplate understood_branchTokens
    hgit hfree).1
  refine ⟨htable, parse_branchTemplate, hgit, fun error herror => ?_⟩
  obtain ⟨_, _, failure, _, hstuck⟩ := (hrender error).mp herror
  rcases hstuck with ⟨hlocated, _⟩ | ⟨hlocated, _⟩ <;> cases hlocated

/-- Git that tells where the repository is and then takes too long. -/
def slowGit : Behaviour := fun _ call =>
  match call.command with
  | .locate => .finished 0 "/home/alice/.git\nfalse\n" ""
  | _ => .timedOut

/-- The second question of a discovery is not rescued as the first one is, and as the question of the
component would be: the prompt is lost. -/
theorem render_branch_slowGit :
    StyleTable.ofSpecs .empty = .ok (homeContext slowGit).styles ∧
    Template.parse (homeContext slowGit).styles branchTemplate = .ok branchTokens ∧
    Orderly slowGit ∧
    (∀ calls call, call.command ≠ .locate → (slowGit calls call).Fails) ∧
    ((homeContext slowGit).render branchTokens {}).1 =
      .error (.git (.failure (.timedOut .topLevel (.ofInt 2)))) := by
  refine ⟨rfl, parse_branchTemplate, fun calls call => ?_, fun calls call h => ?_, ?_⟩
  · rw [slowGit]
    split <;> rfl
  · rw [slowGit]
    split
    · rename_i hlocate
      exact (h hlocate).elim
    · exact .timedOut
  · rfl

end ShellPrompt
