import ShellPrompt.Proofs.Prompt.Borrow

/-! # Looking for the repository

Whatever is drawn looks for the repository before it runs git for anything else, or does not run git
at all. Where something is known about the repository, it stays known, and git is only asked
questions about it. -/

namespace ShellPrompt

/-! ## Runs of git -/

namespace Git

/-- A log of runs that has gone on with questions, and with no discovery. -/
def Questions (calls later : List Call) : Prop :=
  ∃ more, later = calls ++ more ∧ ∀ call ∈ more, call.command.discovers = false

section

variable {α : Type} {calls middle later : List Call} {call : Call}

theorem Questions.refl (calls : List Call) : Questions calls calls :=
  ⟨[], (List.append_nil calls).symm, by simp⟩

theorem Questions.trans (h₁ : Questions calls middle) (h₂ : Questions middle later) :
    Questions calls later := by
  obtain ⟨first, rfl, hfirst⟩ := h₁
  obtain ⟨second, rfl, hsecond⟩ := h₂
  refine ⟨first ++ second, List.append_assoc .., fun call hcall => ?_⟩
  exact (List.mem_append.mp hcall).elim (hfirst call) (hsecond call)

theorem questions_concat (h : call.command.discovers = false) :
    Questions calls (calls ++ [call]) := ⟨[call], rfl, by simpa using h⟩

/-- The action asks git questions, and makes no discovery. -/
def Run.Asks (action : Run α) : Prop := ∀ calls, Questions calls (action calls).2

theorem Run.Asks.bind {β : Type} {action : Run α} {next : α → Run β} (h : Asks action)
    (hnext : ∀ value, Asks (next value)) : Asks (action >>= next) := by
  intro calls
  have hfirst := h calls
  rw [Action.bind_run]
  rcases haction : action calls with ⟨trouble | value, between⟩
  · rw [haction] at hfirst
    exact hfirst
  · rw [haction] at hfirst
    exact hfirst.trans (hnext value between)

theorem Run.Asks.closed (git : Behaviour) :
    Run.Closed git (fun command => command.discovers = false) Asks where
  pure _ := .refl
  bind := .bind
  fail _ := .refl
  run call h calls := by
    rw [run_eq]
    exact questions_concat h
  attempt _ _ h _ := questions_concat h

/-- A discovery runs git once or twice, in the given directory. -/
theorem discover_calls (git : Behaviour) (directory : Path) (timeout : Binary64)
    (calls : List Call) :
    ∃ asked, (asked = [locateCall directory timeout] ∨
        asked = [locateCall directory timeout, topLevelCall directory timeout]) ∧
      (Repository.discover git directory timeout calls).2 = calls ++ asked := by
  rw [discover_eq]
  split
  · exact ⟨_, .inl rfl, rfl⟩
  · exact ⟨_, .inl rfl, rfl⟩
  · exact ⟨_, .inl rfl, rfl⟩
  · exact ⟨_, .inr rfl, rfl⟩

end

end Git

/-! ## What is known -/

/-- An access later on: what was known about the repository is known, and git was only asked
questions. -/
structure Access.Continues (before after : Access) : Prop where
  discovery : after.discovery = before.discovery
  calls : Git.Questions before.calls after.calls

theorem Access.Continues.refl (access : Access) : access.Continues access := ⟨rfl, .refl _⟩

theorem Access.Continues.trans {first second third : Access} (h₁ : first.Continues second)
    (h₂ : second.Continues third) : first.Continues third :=
  ⟨h₂.discovery.trans h₁.discovery, h₁.calls.trans h₂.calls⟩

/-- What is known about the repository when the action starts stays known, and git is only asked
questions. -/
def Draw.KeepsKnown {α : Type} (action : Draw α) : Prop :=
  ∀ (access : Access) (repository : Option Git.Repository), access.discovery = .done repository →
    access.Continues (action access).2

namespace Draw.KeepsKnown

variable {α β : Type}

theorem ofExcept (result : Except RenderError α) : KeepsKnown (.ofExcept result) :=
  fun access _ _ => .refl access

theorem pure (value : α) : KeepsKnown (Pure.pure value : Draw α) := fun access _ _ => .refl access

theorem ofRun {run : Git.Run α} (h : run.Asks) :
    KeepsKnown (Draw.ofRun run) :=
  fun access _ _ => ⟨rfl, h access.calls⟩

theorem bind {action : Draw α} {next : α → Draw β} (h : KeepsKnown action)
    (hnext : ∀ value, KeepsKnown (next value)) : KeepsKnown (action >>= next) := by
  intro access repository hdone
  have hfirst := h access repository hdone
  rw [Action.bind_run]
  rcases haction : action access with ⟨error | value, between⟩
  · rw [haction] at hfirst
    exact hfirst
  · rw [haction] at hfirst
    exact hfirst.trans (hnext value between repository (hfirst.discovery.trans hdone))

theorem closed : Action.Closed KeepsKnown := ⟨pure, bind⟩

theorem mapM {step : β → Draw α} (h : ∀ item, KeepsKnown (step item)) (items : List β) :
    KeepsKnown (items.mapM step) := closed.mapM h items

end Draw.KeepsKnown

section

variable {context : Context}

open Draw

theorem Context.keepsKnown_discover : KeepsKnown context.discover := by
  intro access repository hdone
  rw [discover_of_done hdone]
  exact .refl access

theorem Context.keepsKnown_repository : KeepsKnown context.repository := by
  intro access repository hdone
  cases hborrowed : access.borrowed with
  | true =>
      rw [repository_of_borrowed hborrowed]
      exact .refl access
  | false =>
      rw [repository_of_free hborrowed]
      exact keepsKnown_discover access repository hdone

theorem Context.keepsKnown_borrow : KeepsKnown context.borrow := by
  intro access repository hdone
  cases hborrowed : access.borrowed with
  | true =>
      rw [borrow_of_borrowed hborrowed]
      exact .refl access
  | false =>
      rw [borrow_of_free hborrowed, discover_of_done hdone]
      exact ⟨rfl, .refl _⟩

/-- A component finds out what it shows by questions. -/
theorem Component.asks_found (name : ComponentName) (repository : Option Git.Repository) :
    Git.Run.Asks (found context name repository) :=
  closed_found (Git.Run.Asks.closed context.git) (fun _ h => h) name repository

theorem Component.keepsKnown_text (name : ComponentName) (options : Options) :
    KeepsKnown (text context name options) := by
  cases hreaches : reaches name options with
  | false =>
      rw [text_of_not_reaches hreaches]
      exact .ofExcept _
  | true =>
      intro access repository hdone
      cases hborrowed : access.borrowed with
      | true =>
          obtain ⟨error, _, htext⟩ := text_of_borrowed context hreaches hborrowed
          rw [htext]
          exact .refl access
      | false =>
          rw [text_of_free hreaches hborrowed]
          exact Context.keepsKnown_discover.bind
            (fun repository => .ofRun (asks_found name repository)) access repository hdone

theorem Component.keepsKnown_handle (name : ComponentName) (options : Options) :
    KeepsKnown (handle context name options) := by
  rw [handle_eq_map]
  exact KeepsKnown.closed.map _ (keepsKnown_text name options)

theorem Component.keepsKnown_run (name : ComponentName) (options : Options) :
    KeepsKnown (run context name options) := by
  rw [run_eq_bind]
  exact (keepsKnown_text name options).bind fun shown => .ofExcept _

theorem Context.keepsKnown_slot (leaf : Leaf) : KeepsKnown (context.slot leaf) := by
  cases leaf with
  | text text => exact .pure _
  | style name => exact .ofExcept _
  | component name options => exact Component.keepsKnown_run name options

theorem Context.keepsKnown_render (tokens : List Token) : KeepsKnown (context.render tokens) := by
  rw [render_eq_map]
  exact KeepsKnown.closed.map _ (.mapM keepsKnown_slot _)

end

/-! ## The first look -/

/-- What a discovery comes to is known after it. -/
theorem Context.done_of_discover {context : Context} {access found : Access}
    {repository : Option Git.Repository}
    (h : context.discover access = (.ok repository, found)) :
    found.discovery = .done repository := by
  cases hdiscovery : access.discovery with
  | done known =>
      rw [discover_of_done hdiscovery] at h
      cases h
      exact hdiscovery
  | pending =>
      rw [discover_of_pending hdiscovery] at h
      split at h
      · cases h
        rfl
      · cases h

/-- With a free repository the action looks for it before anything else if it `arrives` at the
repository, and otherwise it leaves everything as it is. -/
structure Draw.Looks {α : Type} (context : Context) (action : Draw α) (arrives : Prop) : Prop where
  first : arrives → ∀ access : Access, access.borrowed = false →
    action access = (context.discover >>= fun _ => action) access
  idle : ¬ arrives → ∀ access : Access, (action access).2 = access

namespace Draw.Looks

variable {α β : Type} {context : Context} {action : Draw α} {arrives : Prop}

theorem ofExcept (result : Except RenderError α) : Looks context (.ofExcept result) False :=
  ⟨False.elim, fun _ _ => rfl⟩

/-- An action that looks for the repository first would not notice if that had been done before. -/
theorem of_discover {next : Option Git.Repository → Draw α}
    (h : ∀ access : Access, access.borrowed = false →
      action access = (context.discover >>= next) access) : Looks context action True := by
  refine ⟨fun _ access hfree => ?_, fun hnot => (hnot trivial).elim⟩
  rw [h access hfree, Action.bind_run, Action.bind_run]
  have hborrowed := Context.borrowed_discover context access
  rcases hdiscover : context.discover access with ⟨error | repository, found⟩
  · rfl
  · rw [hdiscover] at hborrowed
    -- The second look finds what is known from the first one.
    have hagain : context.discover found = (.ok repository, found) :=
      Context.discover_of_done (Context.done_of_discover hdiscover)
    dsimp only
    rw [h found (hborrowed.trans hfree), Action.bind_run, hagain]

theorem first_bind (next : α → Draw β) {access : Access}
    (h : action access = (context.discover >>= fun _ => action) access) :
    (action >>= next) access = (context.discover >>= fun _ => action >>= next) access := by
  rw [Action.bind_congr_run h fun _ => rfl, bind_assoc]

theorem bindExcept {next : α → Except RenderError β} (h : Looks context action arrives) :
    Looks context (action >>= fun value => .ofExcept (next value)) arrives := by
  refine ⟨fun harrives access hfree => first_bind _ (h.first harrives access hfree), ?_⟩
  intro hnot access
  have hidle := h.idle hnot access
  rw [Action.bind_run]
  rcases haction : action access with ⟨error | value, found⟩
  · rw [haction] at hidle
    exact hidle
  · rw [haction] at hidle
    exact hidle

theorem map (f : α → β) (h : Looks context action arrives) :
    Looks context (f <$> action) arrives := by
  rw [← bind_pure_comp]
  exact h.bindExcept

/-- An action that arrives at a repository of which nothing is known makes a discovery first. If the
discovery fails, so does the action; otherwise git is only asked questions after it. -/
theorem discovers (h : Looks context action arrives) (hkeeps : KeepsKnown action)
    (harrives : arrives) {access : Access} (hfree : access.borrowed = false)
    (hpending : access.discovery = .pending) :
    (∃ repository calls, Git.Repository.discover context.git context.currentDir context.gitTimeout
        access.calls = (.ok repository, calls) ∧
      (action access).2.discovery = .done repository ∧
      Git.Questions calls (action access).2.calls) ∨
    ∃ trouble calls, Git.Repository.discover context.git context.currentDir context.gitTimeout
        access.calls = (.error trouble, calls) ∧
      action access = (.error (.ofTrouble trouble), { access with calls }) := by
  rw [h.first harrives access hfree, Action.bind_run, Context.discover_of_pending hpending]
  rcases hdiscover : Git.Repository.discover context.git context.currentDir context.gitTimeout
    access.calls with ⟨trouble | repository, calls⟩
  · exact .inr ⟨trouble, calls, rfl, rfl⟩
  · have hcontinues := hkeeps { access with calls, discovery := .done repository } repository rfl
    exact .inl ⟨repository, calls, rfl, hcontinues.discovery, hcontinues.calls⟩

end Draw.Looks

section

variable {context : Context}

open Draw

theorem Context.looks_repository : Looks context context.repository True :=
  .of_discover fun access hfree => by rw [repository_of_free hfree, bind_pure]

theorem Context.looks_borrow : Looks context context.borrow True :=
  .of_discover fun access hfree => by
    rw [borrow, Action.get_bind_run, hfree]
    rfl

theorem Component.looks_text (name : ComponentName) (options : Options) :
    Looks context (text context name options) (reaches name options = true) := by
  cases hreaches : reaches name options with
  | false =>
      rw [text_of_not_reaches hreaches, Bool.false_eq_true]
      exact .ofExcept _
  | true =>
      rw [eq_self]
      exact .of_discover fun access hfree => text_of_free hreaches hfree

theorem Component.looks_handle (name : ComponentName) (options : Options) :
    Looks context (handle context name options) (reaches name options = true) := by
  rw [handle_eq_map]
  exact (looks_text name options).map _

theorem Component.looks_run (name : ComponentName) (options : Options) :
    Looks context (run context name options) (reaches name options = true) := by
  rw [run_eq_bind]
  exact (looks_text name options).bindExcept

theorem Context.looks_mapM_slot (leaves : List Leaf) :
    Looks context (leaves.mapM context.slot) (context.Arrives leaves) := by
  refine mapM_slot_induction (fun result _ => .ofExcept result) (fun leaf next hreaches => ?_)
    (fun action arrives slot h => h.map (slot :: ·)) leaves
  obtain ⟨name, options, rfl⟩ := leaf.exists_component hreaches
  have hlooks : Looks context (Component.run context name options) _ :=
    Component.looks_run name options
  exact ⟨fun _ access hfree => Looks.first_bind _ (hlooks.first hreaches access hfree),
    fun hnot => (hnot trivial).elim⟩

theorem Context.looks_render (tokens : List Token) :
    Looks context (context.render tokens) (context.Arrives (context.drawn tokens)) := by
  rw [render_eq_map]
  exact (looks_mapM_slot _).map _

end

end ShellPrompt
