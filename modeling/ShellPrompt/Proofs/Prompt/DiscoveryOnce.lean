import ShellPrompt.Proofs.Prompt.Discipline
import ShellPrompt.Proofs.Prompt.Lookup

/-! # One discovery

In a session the repository is looked for when a step first reaches it, in the directory that is
current then. What is found stays known for the rest of the session, whatever is assigned, and no
step looks again. Only a discovery that fails is made again, by the next step that reaches the
repository. -/

namespace ShellPrompt

/-! ## Steps -/

/-- A discovery in the current directory, with git as it is then. -/
def Session.lookup (session : Session) :
    Except Git.Trouble (Option Git.Repository) × List Git.Call :=
  Git.Repository.discover session.context.git session.context.currentDir
    session.context.gitTimeout session.access.calls

/-- Git is first run for a discovery in the current directory, once or twice, and only asked questions
after that. -/
def Session.LooksFirst (session : Session) (calls : List Git.Call) : Prop :=
  let locate := Git.locateCall session.context.currentDir session.context.gitTimeout
  let topLevel := Git.topLevelCall session.context.currentDir session.context.gitTimeout
  ∃ asked, (asked = [locate] ∨ asked = [locate, topLevel]) ∧
    Git.Questions (session.access.calls ++ asked) calls

/-- A step that makes a discovery: from then on the outcome is known and git is only asked questions,
unless the discovery fails and the step with it. -/
inductive Discovers (before : Session) (result : Except StepError StepResult) (after : Session) :
    Prop where
  | found {repository calls} (hlookup : before.lookup = (.ok repository, calls))
    (hknown : after.access.discovery = .done repository)
    (hcalls : Git.Questions calls after.access.calls)
  | raised {trouble calls} (hlookup : before.lookup = (.error trouble, calls))
    (hresult : result = .error (.render (.ofTrouble trouble)))
    (haccess : after.access = { before.access with calls })

theorem Discovers.looksFirst {before after : Session} {result : Except StepError StepResult}
    (h : Discovers before result after) : before.LooksFirst after.access.calls := by
  obtain ⟨asked, hasked, hcalls⟩ := Git.discover_calls before.context.git before.context.currentDir
    before.context.gitTimeout before.access.calls
  rw [← Session.lookup] at hcalls
  refine ⟨asked, hasked, ?_⟩
  cases h with
  | found hlookup _ hquestions =>
      rw [hlookup] at hcalls
      rwa [← hcalls]
  | raised hlookup _ haccess =>
      rw [hlookup] at hcalls
      rw [haccess, ← hcalls]
      exact .refl _

/-- What a step has to do with discoveries. -/
structure DiscoversOnce (before : Session) (operation : Operation)
    (result : Except StepError StepResult) (after : Session) : Prop where
  idle : ¬ operation.Arrives before.context → before.access.borrowed = false →
    after.access = before.access
  discovers : operation.Arrives before.context → before.access.borrowed = false →
    before.access.discovery = .pending → Discovers before result after
  known : ∀ repository, before.access.discovery = .done repository →
    before.access.Continues after.access
  answers : ∀ repository, before.access.discovery = .done repository →
    before.access.borrowed = false → operation = .repository ∨ operation = .borrow →
    result = .ok (.repository repository)

section

variable {session : Session} {operation : Operation}

/-- A step that draws something. -/
theorem discoversOnce_draw {α : Type} (action : Draw α) (result : α → StepResult)
    (hlooks : action.Looks session.context (operation.Arrives session.context))
    (hkeeps : action.KeepsKnown)
    (hanswers : ∀ repository, session.access.discovery = .done repository →
      session.access.borrowed = false → operation = .repository ∨ operation = .borrow →
      (session.draw action result).1 = .ok (.repository repository)) :
    DiscoversOnce session operation (session.draw action result).1
      (session.draw action result).2 := by
  constructor
  · exact fun hnot _ => hlooks.idle hnot session.access
  · intro harrives hfree hpending
    rcases hlooks.discovers hkeeps harrives hfree hpending with
      ⟨repository, calls, hdiscover, hknown, hcalls⟩ | ⟨trouble, calls, hdiscover, haction⟩
    · exact .found hdiscover hknown hcalls
    · refine .raised hdiscover ?_ ?_
      · rw [Session.draw_eq, haction]
        rfl
      · rw [Session.draw_eq, haction]
  · exact fun repository hdone => hkeeps session.access repository hdone
  · exact hanswers

/-- A step that does not arrive at the repository and leaves the access as it is. -/
theorem discoversOnce_of_access_eq {result : Except StepError StepResult} {next : Session}
    (harrives : ¬ operation.Arrives session.context) (haccess : next.access = session.access) :
    DiscoversOnce session operation result next := by
  constructor
  · exact fun _ _ => haccess
  · exact fun h => (harrives h).elim
  · intro repository _
    rw [haccess]
    exact .refl session.access
  · rintro repository _ _ (rfl | rfl)
    · exact (harrives trivial).elim
    · exact (harrives trivial).elim

/-- A step that leaves the borrow, or fails if there is none. -/
theorem discoversOnce_endBorrow (value : StepResult)
    (harrives : ¬ operation.Arrives session.context) :
    DiscoversOnce session operation (session.endBorrow value).1 (session.endBorrow value).2 := by
  unfold Session.endBorrow
  split
  · rename_i hborrowed
    constructor
    · intro _ h
      cases h.symm.trans hborrowed
    · exact fun h => (harrives h).elim
    · exact fun repository _ => ⟨rfl, .refl _⟩
    · intro repository _ h
      cases h.symm.trans hborrowed
  · exact discoversOnce_of_access_eq harrives rfl

/-- Every step looks for the repository at most once, and only if it has to. -/
theorem discoversOnce_step (session : Session) (operation : Operation) :
    DiscoversOnce session operation (session.step operation).1 (session.step operation).2 := by
  have htakes := session.takes_step operation
  generalize session.step operation = outcome at htakes
  cases htakes with
  | stays _ harrives _ haccess => exact discoversOnce_of_access_eq harrives haccess
  | ends value _ harrives => exact discoversOnce_endBorrow value harrives
  | repository =>
      refine discoversOnce_draw session.context.repository _ Context.looks_repository
        Context.keepsKnown_repository fun repository hdone hfree _ => ?_
      rw [Session.draw_eq, Context.repository_of_free hfree, Context.discover_of_done hdone]
      rfl
  | borrow =>
      refine discoversOnce_draw session.context.borrow _ Context.looks_borrow
        Context.keepsKnown_borrow fun repository hdone hfree _ => ?_
      rw [Session.draw_eq, Context.borrow_of_free hfree, Context.discover_of_done hdone]
      rfl
  | @render template tokens harrives =>
      refine discoversOnce_draw _ .prompt ?_ (Context.keepsKnown_render tokens) (by simp)
      rw [harrives]
      exact Context.looks_render tokens
  | @component identifier options name harrives =>
      refine discoversOnce_draw _ .slot ?_ (Component.keepsKnown_run name options) (by simp)
      rw [harrives]
      exact Component.looks_run name options
  | @handle identifier options name harrives =>
      refine discoversOnce_draw _ _ ?_ (Component.keepsKnown_handle name options) (by simp)
      rw [harrives]
      exact Component.looks_handle name options
  | style name =>
      exact discoversOnce_draw (.ofExcept (session.context.styleSequence name)) _ (.ofExcept _)
        (.ofExcept _) (by simp)

end

/-! ## What is known -/

/-- Every access to the repository that is allowed is answered with what is known, whatever the
context, and git is not run for it. -/
structure Access.Knows (access : Access) (repository : Option Git.Repository) : Prop where
  shared : ∀ context : Context, access.borrowed = false →
    context.repository access = (.ok repository, access)
  exclusive : ∀ context : Context, access.borrowed = false →
    context.borrow access = (.ok repository, { access with borrowed := true })
  component : ∀ (context : Context) (name : ComponentName) (options : Options),
    access.borrowed = false → Component.reaches name options = true →
    Component.text context name options access =
      Draw.ofRun (Component.found context name repository) access

theorem Access.knows_of_done {access : Access} {repository : Option Git.Repository}
    (h : access.discovery = .done repository) : access.Knows repository := by
  have hdiscover : ∀ context : Context, context.discover access = (.ok repository, access) :=
    fun context => Context.discover_of_done h
  constructor
  · intro context hfree
    rw [Context.repository_of_free hfree, hdiscover]
  · intro context hfree
    rw [Context.borrow_of_free hfree, hdiscover]
  · intro context name options hfree hreaches
    rw [Component.text_of_free hreaches hfree, Action.bind_run, hdiscover]

/-! ## Runs -/

namespace Session

/-- Discoveries in a session. Every step keeps to the rules. The steps in front of the first that
arrives at the repository do not run git, and that step runs git for a discovery first. What is known
stays known, between the steps and between the leaves of a prompt. A discovery is the last one,
unless it fails. -/
structure LooksOnce (session : Session) (operations : List Operation) : Prop where
  steps : ∀ place operation, operations[place]? = some operation →
    ∃ result, (session.run operations)[place]? =
        some (result, session.after (operations.take (place + 1))) ∧
      DiscoversOnce (session.after (operations.take place)) operation result
        (session.after (operations.take (place + 1)))
  idle : ∀ stop, (∀ place operation, place < stop → operations[place]? = some operation →
      ¬ operation.Arrives (session.after (operations.take place)).context) →
    (session.after (operations.take stop)).access = session.access
  first : ∀ place operation, operations[place]? = some operation →
    operation.Arrives (session.after (operations.take place)).context →
    (session.after (operations.take place)).access.discovery = .pending →
    ∃ result, (session.run operations)[place]? =
        some (result, session.after (operations.take (place + 1))) ∧
      Discovers (session.after (operations.take place)) result
        (session.after (operations.take (place + 1))) ∧
      (session.after (operations.take place)).LooksFirst
        (session.after (operations.take (place + 1))).access.calls
  known : ∀ start stop repository, start ≤ stop →
    (session.after (operations.take start)).access.discovery = .done repository →
    (session.after (operations.take start)).access.Continues
      (session.after (operations.take stop)).access ∧
    ∀ (context : Context) (leaves : List Leaf), ((leaves.mapM context.slot)
      (session.after (operations.take stop)).access).2.Knows repository
  last : ∀ place later operation, place < later → operations[place]? = some operation →
    operation.Arrives (session.after (operations.take place)).context →
    (session.after (operations.take later)).access.discovery = .pending →
    ∃ trouble next, (session.after (operations.take place)).lookup.1 = .error trouble ∧
      (session.run operations)[place]? = some (.error (.render (.ofTrouble trouble)), next)

variable {session : Session} {operations : List Operation}

/-- What a session has at its start and every step keeps it has at its end. -/
theorem after_induction {motive : Session → Prop} (hstart : motive session)
    (hstep : ∀ session operation, motive session → motive (session.step operation).2)
    (operations : List Operation) : motive (session.after operations) := by
  induction operations generalizing session with
  | nil => exact hstart
  | cons operation rest ih => exact ih (hstep session operation hstart)

theorem after_append (first second : List Operation) :
    session.after (first ++ second) = (session.after first).after second :=
  List.foldl_append

theorem after_take_of_le {start stop : Nat} (h : start ≤ stop) :
    session.after (operations.take stop) = (session.after (operations.take start)).after
      ((operations.take stop).drop start) := by
  have hsplit := List.take_append_drop start (operations.take stop)
  rw [List.take_take, Nat.min_eq_left h] at hsplit
  rw [← after_append, hsplit]

theorem continues_after {repository : Option Git.Repository}
    (hdone : session.access.discovery = .done repository) (operations : List Operation) :
    session.access.Continues (session.after operations).access := by
  refine after_induction (motive := fun next => session.access.Continues next.access)
    (.refl session.access) (fun next operation hnext => ?_) operations
  have hstep := discoversOnce_step next operation
  exact hnext.trans (hstep.known repository (hnext.discovery.trans hdone))

/-- Where nothing is known about the repository it is not borrowed. -/
theorem free_of_pending (hfree : session.access.borrowed = false)
    (hpending : (session.after operations).access.discovery = .pending) :
    (session.after operations).access.borrowed = false := by
  refine after_induction (motive := fun session =>
    session.access.discovery = .pending → session.access.borrowed = false)
    (fun _ => hfree) (fun next operation hnext hlater => ?_) operations hpending
  have hstep := discoversOnce_step next operation
  -- A borrow begins with a discovery, and nothing that was found is forgotten.
  cases hdiscovery : next.access.discovery with
  | done repository =>
      cases hlater.symm.trans ((hstep.known repository hdiscovery).discovery.trans hdiscovery)
  | pending =>
      have hfree := hnext hdiscovery
      by_cases harrives : operation.Arrives next.context
      · cases hstep.discovers harrives hfree hdiscovery with
        | found _ hknown _ => cases hlater.symm.trans hknown
        | raised _ _ haccess =>
            rw [haccess]
            exact hfree
      · rw [hstep.idle harrives hfree]
        exact hfree

/-- Nothing happens before a step arrives at the repository. -/
theorem access_of_not_arrives (hfree : session.access.borrowed = false) {stop : Nat}
    (h : ∀ place operation, place < stop → operations[place]? = some operation →
      ¬ operation.Arrives (session.after (operations.take place)).context) :
    (session.after (operations.take stop)).access = session.access := by
  induction stop with
  | zero => rfl
  | succ stop ih =>
      have ih := ih fun place operation hplace => h place operation (by omega)
      cases hoperation : operations[stop]? with
      | none =>
          have hlength := List.getElem?_eq_none_iff.mp hoperation
          rw [List.take_of_length_le hlength] at ih
          rw [List.take_of_length_le (by omega), ih]
      | some operation =>
          rw [after_take_succ hoperation,
            (discoversOnce_step _ operation).idle (h stop operation (by omega) hoperation), ih]
          rw [ih]
          exact hfree

/-- What is known in front of a step is known in front of all later ones. -/
theorem continues_take_of_le {start stop : Nat} {repository : Option Git.Repository}
    (hle : start ≤ stop)
    (hdone : (session.after (operations.take start)).access.discovery = .done repository) :
    (session.after (operations.take start)).access.Continues
      (session.after (operations.take stop)).access := by
  rw [after_take_of_le hle]
  exact continues_after hdone _

/-- A step that arrives at a repository of which nothing is known makes a discovery. -/
theorem discovers_of_pending (hfree : session.access.borrowed = false) {place : Nat}
    {operation : Operation} (h : operations[place]? = some operation)
    (harrives : operation.Arrives (session.after (operations.take place)).context)
    (hpending : (session.after (operations.take place)).access.discovery = .pending) :
    Discovers (session.after (operations.take place))
      ((session.after (operations.take place)).step operation).1
      (session.after (operations.take (place + 1))) := by
  have hstep := discoversOnce_step (session.after (operations.take place)) operation
  rw [after_take_succ h]
  exact hstep.discovers harrives (free_of_pending hfree hpending) hpending

theorem looksOnce_of_free (hfree : session.access.borrowed = false) (operations : List Operation) :
    session.LooksOnce operations := by
  constructor
  · intro place operation h
    refine ⟨_, getElem?_run_after h, ?_⟩
    rw [after_take_succ h]
    exact discoversOnce_step _ operation
  · exact fun stop h => access_of_not_arrives hfree h
  · intro place operation h harrives hpending
    have hdiscovers := discovers_of_pending hfree h harrives hpending
    exact ⟨_, getElem?_run_after h, hdiscovers, hdiscovers.looksFirst⟩
  · intro start stop repository hle hdone
    have hcontinues := continues_take_of_le hle hdone
    refine ⟨hcontinues, fun context leaves => Access.knows_of_done ?_⟩
    have hkeeps : Draw.KeepsKnown (leaves.mapM context.slot) :=
      .mapM Context.keepsKnown_slot leaves
    have hlater := hcontinues.discovery.trans hdone
    exact (hkeeps _ repository hlater).discovery.trans hlater
  · intro place later operation hlt h harrives hpending
    -- What had been found by then would still be known.
    have hunknown : ∀ start ≤ later, ∀ repository,
        (session.after (operations.take start)).access.discovery ≠ .done repository := by
      intro start hle repository hdone
      have hcontinues := continues_take_of_le hle hdone
      cases hpending.symm.trans (hcontinues.discovery.trans hdone)
    cases hdiscovery : (session.after (operations.take place)).access.discovery with
    | done repository => exact (hunknown place (by omega) repository hdiscovery).elim
    | pending =>
        cases discovers_of_pending hfree h harrives hdiscovery with
        | found _ hknown _ => exact (hunknown (place + 1) hlt _ hknown).elim
        | @raised trouble _ hlookup hresult _ =>
            rw [getElem?_run_after h, hresult]
            exact ⟨trouble, _, congrArg Prod.fst hlookup, rfl⟩

/-- In every session on a context without a repository, whatever git was run for before and however
it behaves, the repository is looked for when a step first arrives at it, in the current directory,
and again only after discoveries that failed. A prompt does not arrive at it by texts, styles, the
host, the user, the jobs and the current directory in its longer forms. -/
theorem run_looksOnce (context : Context) (calls : List Git.Call) (operations : List Operation) :
    LooksOnce ⟨context, { calls }⟩ operations ∧
    ∀ (context : Context) (tokens : List Token), (∀ name options,
        .component name options ∈ context.drawn tokens →
        name = .hostname ∨ name = .user ∨ name = .jobs ∨
          (name = .cwd ∧ options.get? Component.styleKey ≠ some DirectoryStyle.short.name)) →
      ∀ access : Access, (context.evaluate tokens access).2 = access := by
  refine ⟨looksOnce_of_free rfl operations, fun context tokens htokens access => ?_⟩
  rw [Context.evaluate_eq_mapM]
  refine (Context.looks_mapM_slot _).idle (fun harrives => ?_) access
  obtain ⟨leaf, hleaf, hreaches⟩ := Context.exists_reaches_of_arrives harrives
  obtain ⟨name, options, rfl⟩ := leaf.exists_component hreaches
  rcases htokens name options hleaf with rfl | rfl | rfl | ⟨rfl, hstyle⟩
  · cases hreaches
  · cases hreaches
  · cases hreaches
  · exact hstyle (of_decide_eq_true hreaches)

end Session

end ShellPrompt
