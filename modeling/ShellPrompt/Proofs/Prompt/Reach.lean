import ShellPrompt.Proofs.Dictionary
import ShellPrompt.Proofs.Git.Closed
import ShellPrompt.Prompt.Component

/-! # Components that reach the repository

The git components and the short form of the current directory need the repository; the other
components leave the access as it is. While the repository is borrowed those that need it fail
before they run git; while it is free they look for it first and put at most one question to git. -/

namespace ShellPrompt

/-! ## Runs of git while a prompt is drawn -/

namespace Draw

variable {α β : Type}

theorem ofRun_run (run : Git.Run α) (access : Access) : ofRun run access =
    ((run access.calls).1.mapError .ofTrouble, { access with calls := (run access.calls).2 }) :=
  rfl

theorem ofRun_pure (value : α) : ofRun (pure value) = pure value := rfl

theorem map_ofRun (f : α → β) (run : Git.Run α) : f <$> ofRun run = ofRun (f <$> run) := by
  funext access
  rw [Action.map_run, ofRun_run, ofRun_run, Action.map_run]
  rcases run access.calls with ⟨_ | _, _⟩ <;> rfl

end Draw

/-! ## Access to the repository -/

/-- An access that fails because of a borrow. -/
inductive RenderError.IsBorrow : RenderError → Prop where
  | shared : IsBorrow .borrowed
  | exclusive : IsBorrow .borrowedTwice

/-- An error that the template and the context bring about on their own, without the repository. -/
inductive RenderError.IsOwn : RenderError → Prop where
  | style (error : StyleError) : IsOwn (.style error)
  | invalidOptions (component : ComponentName) (options : Options) :
    IsOwn (.invalidOptions component options)

theorem RenderError.IsOwn.not_isBorrow {error : RenderError} (h : error.IsOwn) :
    ¬ error.IsBorrow := by
  cases h <;> rintro ⟨⟩

theorem RenderError.IsOwn.ne_ofTrouble {error : RenderError} (h : error.IsOwn)
    (trouble : Git.Trouble) : error ≠ .ofTrouble trouble := by
  cases h <;> cases trouble <;> rintro ⟨⟩

namespace Context

variable {context : Context} {access : Access}

theorem discover_of_done {repository : Option Git.Repository}
    (h : access.discovery = .done repository) :
    context.discover access = (.ok repository, access) := by
  rw [discover, Action.get_bind_run, h]
  rfl

/-- A repository that is not known is looked for. It is known from then on, unless git fails. -/
theorem discover_of_pending (h : access.discovery = .pending) :
    context.discover access =
      match Git.Repository.discover context.git context.currentDir context.gitTimeout
        access.calls with
      | (.ok repository, calls) =>
        (.ok repository, { access with calls, discovery := .done repository })
      | (.error trouble, calls) => (.error (.ofTrouble trouble), { access with calls }) := by
  obtain ⟨calls, discovery, borrowed⟩ := access
  obtain rfl : discovery = .pending := h
  rw [discover, Action.get_bind_run]
  dsimp only
  rw [Action.bind_run, Draw.ofRun_run]
  rcases Git.Repository.discover context.git context.currentDir context.gitTimeout
    calls with ⟨_ | _, _⟩ <;> rfl

theorem repository_of_free (h : access.borrowed = false) :
    context.repository access = context.discover access := by
  rw [repository, Action.get_bind_run, h]
  rfl

theorem repository_of_borrowed (h : access.borrowed = true) :
    context.repository access = (.error .borrowed, access) := by
  rw [repository, Action.get_bind_run, h]
  rfl

theorem borrow_of_borrowed (h : access.borrowed = true) :
    context.borrow access = (.error .borrowedTwice, access) := by
  rw [borrow, Action.get_bind_run, h]
  rfl

/-- A discovery has no part in borrowing. -/
theorem borrowed_discover (context : Context) (access : Access) :
    (context.discover access).2.borrowed = access.borrowed := by
  cases h : access.discovery with
  | done repository => rw [discover_of_done h]
  | pending =>
      rw [discover_of_pending h]
      split <;> rfl

theorem borrow_of_free (h : access.borrowed = false) :
    context.borrow access = match context.discover access with
      | (.ok repository, next) => (.ok repository, { next with borrowed := true })
      | (.error error, next) => (.error error, next) := by
  rw [borrow, Action.get_bind_run, h, if_neg Bool.false_ne_true, Action.bind_run]
  rcases context.discover access with ⟨_ | _, _⟩ <;> rfl

/-- Where only git is run during a borrow, nothing is left of the borrow. -/
theorem exclusively_ofRun {α : Type} (use : Option Git.Repository → Git.Run α)
    (h : access.borrowed = false) :
    context.exclusively (fun repository => Draw.ofRun (use repository)) access =
      (context.discover >>= fun repository => Draw.ofRun (use repository)) access := by
  have hborrowed := borrowed_discover context access
  rw [exclusively, Action.bind_run, borrow_of_free h, Action.bind_run]
  rcases hdiscover : context.discover access with ⟨_ | repository, next⟩
  · rfl
  · rw [hdiscover] at hborrowed
    obtain ⟨calls, discovery, borrowed⟩ := next
    obtain rfl : borrowed = false := hborrowed.trans h
    rfl

end Context

/-! ## Components -/

namespace Component

/-- The text of a component. -/
def text (context : Context) (name : ComponentName) (options : Options) : Draw (Option String) :=
  match name with
  | .cwd => do
    let style ← .ofExcept (directoryStyle options)
    return some (← directory context style)
  | .gitBranch => fromRepository context (·.branch context.git)
  | .gitCommit => fromRepository context (·.commit context.git)
  | .gitStash => stash context
  | .gitStatus => status context
  | .hostname => return hostName context
  | .jobs => return jobCount context
  | .user => return userName context

/-- The options that a component leaves. -/
def left (name : ComponentName) (options : Options) : Options :=
  match name with
  | .cwd => options.erase styleKey
  | _ => options

theorem handle_eq_map (context : Context) (name : ComponentName) (options : Options) :
    handle context name options =
      (fun shown => (shown, left name options)) <$> text context name options := by
  cases name with
  | cwd => simp only [handle, text, left, map_bind, map_pure]
  | hostname | jobs | user => rfl
  | _ => simp only [handle, text, left, bind_pure_comp]

/-- Whether a component reaches the repository. -/
def reaches (name : ComponentName) (options : Options) : Bool :=
  match name with
  | .cwd => options.get? styleKey = some DirectoryStyle.short.name
  | .gitBranch | .gitCommit | .gitStash | .gitStatus => true
  | .hostname | .jobs | .user => false

/-- A number of stashed changes as it is shown, if there are any. -/
def stashText (count : Option Nat) : Option String :=
  (count.filter (· ≠ 0)).map fun n => toString n ++ "+"

/-- The number of stashed changes, from what git lists. -/
def stashCount? (reply : Git.Finished) : Option Nat :=
  if reply.status = 0 then some ((Text.lines reply.output).filter (· ≠ "")).length else none

/-- A question about a repository that stays open where git fails. -/
def question (context : Context) (repository : Git.Repository) (command : Git.Command)
    (read : Git.Finished → Option String) : Git.Run (Option String) :=
  Git.attempt context.git ⟨command, repository.path, repository.timeout⟩ read

/-- What a component makes of what is known about the repository. -/
def found (context : Context) : ComponentName → Option Git.Repository → Git.Run (Option String)
  | .cwd, repository => return some (shortDirectory context repository)
  | .gitBranch, some repository => question context repository .branchName Git.Repository.answer?
  | .gitCommit, some repository => question context repository .shortCommit Git.Repository.answer?
  | .gitStash, some repository =>
    if repository.isBare then return none
    else question context repository .stashList fun reply => stashText (stashCount? reply)
  | .gitStatus, some repository =>
    if repository.isBare then return none
    else do
      let summary ← repository.status context.git
      return if summary.isClean then none else some summary.text
  | _, _ => return none

/-- What holds of all runs of git but discoveries holds of what a component makes of a
repository. -/
theorem closed_found {context : Context} {allowed : Git.Command → Prop}
    {property : ∀ {α : Type}, Git.Run α → Prop}
    (h : Git.Run.Closed context.git allowed property)
    (hallowed : ∀ command, command.discovers = false → allowed command) (name : ComponentName)
    (repository : Option Git.Repository) : property (found context name repository) := by
  cases repository with
  | none => cases name <;> exact h.pure _
  | some repository =>
      cases name with
      | gitBranch => exact h.attempt _ _ (hallowed .branchName rfl)
      | gitCommit => exact h.attempt _ _ (hallowed .shortCommit rfl)
      | gitStash =>
          rw [found]
          split
          · exact h.pure _
          · exact h.attempt _ _ (hallowed .stashList rfl)
      | gitStatus =>
          rw [found]
          split
          · exact h.pure _
          · exact h.bind (h.status (hallowed .status rfl) repository) fun summary => h.pure _
      | _ => exact h.pure _

theorem reaches_cwd_iff {options : Options} :
    reaches .cwd options = true ↔ directoryStyle options = .ok .short := by
  have hreaches : reaches .cwd options = true ↔
      options.get? styleKey = some DirectoryStyle.short.name := decide_eq_true_iff
  rw [hreaches, directoryStyle]
  constructor
  · intro h
    rw [h]
    rfl
  · intro h
    split at h
    · rename_i style hstyle
      obtain rfl := Except.ok.inj h
      have hname : DirectoryStyle.short.name =
          (options.get? styleKey).getD DirectoryStyle.default.name := by
        simpa using List.find?_some hstyle
      cases hget : options.get? styleKey with
      | none =>
          rw [hget] at hname
          revert hname
          decide
      | some value =>
          rw [hget] at hname
          rw [hname, Option.getD_some]
    · cases h

/-- What a component shows that does not need the repository. -/
def ownText (context : Context) (name : ComponentName) (options : Options) :
    Except RenderError (Option String) :=
  match name with
  | .cwd => (directoryStyle options).map fun style =>
    if style = .long then some context.currentDir.text
    else some (context.currentDir.displayed context.homeDir)
  | .hostname => .ok (hostName context)
  | .jobs => .ok (jobCount context)
  | .user => .ok (userName context)
  | _ => .ok none

theorem text_of_not_reaches {context : Context} {name : ComponentName} {options : Options}
    (h : reaches name options = false) :
    text context name options = .ofExcept (ownText context name options) := by
  cases name with
  | cwd =>
      have hshort : directoryStyle options ≠ .ok .short := by
        rw [Ne, ← reaches_cwd_iff, h]
        exact Bool.false_ne_true
      rw [text, ownText]
      cases hstyle : directoryStyle options with
      | error error => rfl
      | ok style =>
          cases style with
          | short => exact (hshort hstyle).elim
          | default => rfl
          | long => rfl
  | hostname | jobs | user => rfl
  | _ => cases h

/-- During a borrow a component that reaches the repository fails at once. -/
theorem text_of_borrowed (context : Context) {access : Access} {name : ComponentName}
    {options : Options} (hreaches : reaches name options = true) (h : access.borrowed = true) :
    ∃ error, error.IsBorrow ∧ text context name options access = (.error error, access) := by
  have hshared : context.repository access = (.error .borrowed, access) :=
    Context.repository_of_borrowed h
  have hborrow : context.borrow access = (.error .borrowedTwice, access) :=
    Context.borrow_of_borrowed h
  cases name with
  | cwd =>
      refine ⟨.borrowed, .shared, ?_⟩
      rw [text, Action.bind_run, Action.ofExcept_run, reaches_cwd_iff.mp hreaches]
      dsimp only
      rw [directory, bind_assoc, Action.bind_run, hshared]
  | gitStash =>
      refine ⟨.borrowedTwice, .exclusive, ?_⟩
      rw [text, stash, Context.exclusively, bind_assoc, Action.bind_run, hborrow]
  | hostname | jobs | user => cases hreaches
  | _ =>
      refine ⟨.borrowed, .shared, ?_⟩
      simp only [text, fromRepository, status, Action.bind_run, hshared]

section

variable {context : Context} {access : Access}

theorem fromRepository_of_free {ask : Git.Repository → Git.Run (Option String)}
    {answer : Option Git.Repository → Git.Run (Option String)} (hfree : access.borrowed = false)
    (hnone : answer none = pure none)
    (hsome : ∀ repository, answer (some repository) = Git.Repository.orNone (ask repository)) :
    fromRepository context ask access =
      (context.discover >>= fun repository => Draw.ofRun (answer repository)) access := by
  refine Action.bind_congr_run (Context.repository_of_free hfree) fun repository => ?_
  cases repository with
  | none => rw [hnone, Draw.ofRun_pure]
  | some repository => rw [hsome]

/-- What is found out about the stash, before it is shown. -/
def stashFound (context : Context) (repository : Option Git.Repository) : Git.Run (Option Nat) :=
  match repository with
  | none => return none
  | some repository =>
    if repository.isBare then return none
    else Git.attempt context.git ⟨.stashList, repository.path, repository.timeout⟩ stashCount?

theorem stashCount_eq (context : Context) :
    stashCount context = fun repository => Draw.ofRun (stashFound context repository) := by
  funext repository
  cases repository with
  | none => rfl
  | some repository =>
      rw [stashCount, stashFound]
      by_cases hbare : repository.isBare = true
      · rw [if_pos hbare, if_pos hbare, Draw.ofRun_pure]
      · rw [if_neg hbare, if_neg hbare]
        refine congrArg Draw.ofRun ?_
        have houtput := Git.orNone_output_eq_attempt context.git repository .stashList
          fun output => ((Text.lines output).filter (· ≠ "")).length
        refine Eq.trans ?_ houtput
        simp only [Git.Repository.stashes, bind_assoc, pure_bind]

theorem map_stashFound (context : Context) (repository : Option Git.Repository) :
    stashText <$> stashFound context repository = found context .gitStash repository := by
  cases repository with
  | none => rfl
  | some repository =>
      rw [stashFound, found]
      by_cases hbare : repository.isBare = true
      · rw [if_pos hbare, if_pos hbare]
        rfl
      · rw [if_neg hbare, if_neg hbare]
        exact Git.map_attempt rfl

theorem stash_of_free (hfree : access.borrowed = false) : stash context access =
    (context.discover >>= fun repository => Draw.ofRun (found context .gitStash repository))
      access := by
  have hcount : context.exclusively (stashCount context) access =
      (context.discover >>= fun repository => Draw.ofRun (stashFound context repository))
        access := by
    rw [stashCount_eq, Context.exclusively_ofRun _ hfree]
  rw [stash, Action.bind_congr_run hcount fun _ => rfl, bind_assoc]
  refine Action.bind_congr_run rfl fun repository => ?_
  rw [bind_pure_comp, Draw.map_ofRun, ← map_stashFound]
  rfl

theorem status_of_free (hfree : access.borrowed = false) : status context access =
    (context.discover >>= fun repository => Draw.ofRun (found context .gitStatus repository))
      access := by
  refine Action.bind_congr_run (Context.repository_of_free hfree) fun repository => ?_
  cases repository with
  | none => rfl
  | some repository =>
      rw [found]
      by_cases hbare : repository.isBare = true
      · rw [if_pos hbare, Draw.ofRun_pure]
        exact if_pos hbare
      · rw [if_neg hbare, bind_pure_comp, ← Draw.map_ofRun, ← bind_pure_comp]
        exact if_neg hbare

theorem text_of_free {name : ComponentName} {options : Options}
    (hreaches : reaches name options = true) (hfree : access.borrowed = false) :
    text context name options access =
      (context.discover >>= fun repository => Draw.ofRun (found context name repository)) access := by
  cases name with
  | cwd =>
      rw [text, Action.bind_run, Action.ofExcept_run, reaches_cwd_iff.mp hreaches]
      dsimp only
      rw [directory, bind_assoc]
      exact Action.bind_congr_run (Context.repository_of_free hfree) fun repository => rfl
  | gitBranch =>
      exact fromRepository_of_free hfree rfl fun repository => Git.orNone_run_eq_attempt.symm
  | gitCommit =>
      exact fromRepository_of_free hfree rfl fun repository => Git.orNone_run_eq_attempt.symm
  | gitStash => exact stash_of_free hfree
  | gitStatus => exact status_of_free hfree
  | hostname | jobs | user => cases hreaches

end

/-- The slot for a text of a component. There is none if the component leaves options. -/
def slotOf (context : Context) (name : ComponentName) (options : Options) (shown : Option String) :
    Except RenderError Slot :=
  if (left name options).isEmpty then
    .ok (shown.map fun text => .value (context.shell.escape text))
  else .error (.invalidOptions name (left name options))

theorem run_eq_bind (context : Context) (name : ComponentName) (options : Options) :
    run context name options =
      text context name options >>= fun shown => .ofExcept (slotOf context name options shown) := by
  rw [run, handle_eq_map, bind_map_left]
  refine congrArg _ (funext fun shown => ?_)
  dsimp only
  rw [slotOf]
  split <;> rfl

/-! ## Options that are understood -/

/-- A component understands all its options: only the current directory takes one, which names a
style. -/
def Understood (name : ComponentName) (options : Options) : Prop :=
  ∀ entry ∈ options.entries, name = .cwd ∧ entry.1 = styleKey ∧
    (DirectoryStyle.ofName? entry.2).isSome = true

section

variable {name : ComponentName} {options : Options}

theorem Understood.isEmpty_left (h : Understood name options) :
    (left name options).isEmpty = true := by
  rw [Dictionary.isEmpty, List.isEmpty_iff, List.eq_nil_iff_forall_not_mem]
  intro entry hentry
  cases name with
  | cwd =>
      obtain ⟨hmem, hkey⟩ := List.mem_filter.mp hentry
      exact of_decide_eq_true hkey (h entry hmem).2.1
  | _ => cases (h entry hentry).1

theorem Understood.exists_directoryStyle (h : Understood .cwd options) :
    ∃ style, directoryStyle options = .ok style := by
  have hname : (DirectoryStyle.ofName?
      ((options.get? styleKey).getD DirectoryStyle.default.name)).isSome = true := by
    cases hget : options.get? styleKey with
    | none => decide
    | some value => exact (h _ (Dictionary.get?_eq_some_iff.mp hget)).2.2
  obtain ⟨style, hstyle⟩ := Option.isSome_iff_exists.mp hname
  refine ⟨style, ?_⟩
  rw [directoryStyle, hstyle]

theorem Understood.exists_ownText (h : Understood name options) (context : Context) :
    ∃ shown, ownText context name options = .ok shown := by
  cases name with
  | cwd =>
      obtain ⟨style, hstyle⟩ := h.exists_directoryStyle
      rw [ownText, hstyle]
      exact ⟨_, rfl⟩
  | _ => exact ⟨_, rfl⟩

theorem Understood.slotOf_eq {context : Context} (h : Understood name options)
    (shown : Option String) : slotOf context name options shown =
      .ok (shown.map fun text => .value (context.shell.escape text)) := by
  rw [slotOf, if_pos h.isEmpty_left]

end

end Component

end ShellPrompt
