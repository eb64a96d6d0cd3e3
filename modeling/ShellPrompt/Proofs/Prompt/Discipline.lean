import ShellPrompt.Prompt.Session
import ShellPrompt.Proofs.Prompt.GitTrouble

/-! # The discipline of borrows

In a session the repository is borrowed exactly between a step that succeeds in borrowing it and the
next step that leaves the borrow. In between, nothing else gets through to it, and nothing changes.
At all other times no step is stopped by a borrow, and none leaves one behind. -/

namespace ShellPrompt

/-! ## Steps -/

/-- The step gets to the point where it reaches the repository. -/
def Operation.Arrives (context : Context) : Operation → Prop
  | .repository | .borrow => True
  | .render template => ∃ tokens, Template.parse context.styles template = .ok tokens ∧
    context.Arrives (context.drawn tokens)
  | .component identifier options | .handle identifier options =>
    ∃ name, ComponentName.ofIdentifier? identifier = some name ∧
      Component.reaches name options = true
  | .release | .releaseByError | .condition _ | .style _ | .assign _ => False

/-- Whether the step leaves a borrow. -/
def Operation.leaves : Operation → Bool
  | .release | .releaseByError => true
  | _ => false

/-- The ways to take a step: some stay away from the repository, some leave the borrow, and the
others draw something. -/
inductive Session.Takes (session : Session) :
    Operation → Except StepError StepResult × Session → Prop where
  | stays {operation result next} (hleaves : operation.leaves = false)
    (harrives : ¬ operation.Arrives session.context)
    (hresult : ∀ error, result ≠ .error (.render error)) (haccess : next.access = session.access) :
    Takes session operation (result, next)
  | ends {operation} (value : StepResult) (hleaves : operation.leaves = true)
    (harrives : ¬ operation.Arrives session.context) :
    Takes session operation (session.endBorrow value)
  | repository : Takes session .repository (session.draw session.context.repository .repository)
  | borrow : Takes session .borrow (session.draw session.context.borrow .repository)
  | render {template tokens}
    (harrives : Operation.Arrives session.context (.render template) ↔
      session.context.Arrives (session.context.drawn tokens)) :
    Takes session (.render template) (session.draw (session.context.render tokens) .prompt)
  | component {identifier} {options : Options} {name : ComponentName}
    (harrives : Operation.Arrives session.context (.component identifier options) ↔
      Component.reaches name options = true) :
    Takes session (.component identifier options)
      (session.draw (Component.run session.context name options) .slot)
  | handle {identifier} {options : Options} {name : ComponentName}
    (harrives : Operation.Arrives session.context (.handle identifier options) ↔
      Component.reaches name options = true) :
    Takes session (.handle identifier options)
      (session.draw (Component.handle session.context name options) fun (shown, left) =>
        .handled shown left)
  | style (name : String) : Takes session (.style name)
      (session.draw (.ofExcept (session.context.styleSequence name)) .sequence)

theorem Session.takes_step (session : Session) (operation : Operation) :
    session.Takes operation (session.step operation) := by
  cases operation with
  | repository => exact .repository
  | borrow => exact .borrow
  | release => exact .ends _ rfl id
  | releaseByError => exact .ends _ rfl id
  | render template =>
      rw [step]
      cases hparse : Template.parse session.context.styles template with
      | error error => exact .stays rfl (by simp [Operation.Arrives, hparse]) (by simp) rfl
      | ok tokens => exact .render (by simp [Operation.Arrives, hparse])
  | component identifier options =>
      rw [step, withComponent]
      cases hname : ComponentName.ofIdentifier? identifier with
      | none => exact .stays rfl (by simp [Operation.Arrives, hname]) (by simp) rfl
      | some name => exact .component (by simp [Operation.Arrives, hname])
  | handle identifier options =>
      rw [step, withComponent]
      cases hname : ComponentName.ofIdentifier? identifier with
      | none => exact .stays rfl (by simp [Operation.Arrives, hname]) (by simp) rfl
      | some name => exact .handle (by simp [Operation.Arrives, hname])
  | condition identifier =>
      rw [step]
      split
      · exact .stays rfl id (by simp) rfl
      · exact .stays rfl id (by simp) rfl
  | style name => exact .style name
  | assign change => exact .stays rfl id (by simp) rfl

/-- A step that is stopped by a borrow. -/
def StoppedByBorrow (result : Except StepError StepResult) : Prop :=
  ∃ error, result = .error (.render error) ∧ error.IsBorrow

/-- What borrows have to do with a step. -/
structure Disciplined (before : Session) (operation : Operation)
    (result : Except StepError StepResult) (after : Session) : Prop where
  stopped_iff : StoppedByBorrow result ↔
    before.access.borrowed = true ∧ operation.Arrives before.context
  held : before.access.borrowed = true → operation.leaves = false → after.access = before.access
  left : before.access.borrowed = true → operation.leaves = true →
    (∃ value, result = .ok value) ∧ after.access = Context.release before.access
  begun_iff : before.access.borrowed = false →
    (after.access.borrowed = true ↔ operation = .borrow ∧ ∃ value, result = .ok value)

section

variable {session : Session} {operation : Operation}

theorem Session.draw_eq {α : Type} (action : Draw α) (result : α → StepResult) :
    session.draw action result =
      (((action session.access).1.map result).mapError .render,
        { session with access := (action session.access).2 }) := rfl

theorem stoppedByBorrow_iff {α : Type} {outcome : Except RenderError α} {result : α → StepResult} :
    StoppedByBorrow ((outcome.map result).mapError .render) ↔
      ∃ error, outcome = .error error ∧ error.IsBorrow := by
  cases outcome with
  | error error => simp [StoppedByBorrow, Except.map, Except.mapError]
  | ok value => simp [StoppedByBorrow, Except.map, Except.mapError]

/-- A step that draws something is stopped by a borrow exactly if it arrives at the repository during
one. -/
theorem stoppedByBorrow_draw_iff {α : Type} (action : Draw α) {arrives : Prop}
    (result : α → StepResult) (hheld : action.Respects arrives)
    (hfree : session.access.borrowed = false →
      ∀ error, (action session.access).1 = .error error → ¬ error.IsBorrow) :
    StoppedByBorrow (session.draw action result).1 ↔
      session.access.borrowed = true ∧ arrives := by
  rw [Session.draw_eq, stoppedByBorrow_iff]
  cases hborrowed : session.access.borrowed with
  | true => rw [hheld.stopped_iff _ hborrowed, eq_self, true_and]
  | false =>
      rw [Bool.false_eq_true, false_and, iff_false]
      rintro ⟨error, herror, hstopped⟩
      exact hfree hborrowed error herror hstopped

/-- A step that draws something, but begins no borrow. -/
theorem disciplined_draw {α : Type} (action : Draw α) (result : α → StepResult)
    (hleaves : operation.leaves = false) (hborrow : operation ≠ .borrow)
    (hfree : action.KeepsFree) (hheld : action.Respects (operation.Arrives session.context)) :
    Disciplined session operation (session.draw action result).1
      (session.draw action result).2 := by
  constructor
  · exact stoppedByBorrow_draw_iff action result hheld fun h => (hfree _ h).2
  · exact fun hborrowed _ => hheld.unchanged _ hborrowed
  · intro _ h
    cases hleaves.symm.trans h
  · intro h
    have hkept : (session.draw action result).2.access.borrowed = false := (hfree _ h).1
    simp [hkept, hborrow]

/-- A step that has nothing to do with the repository. -/
theorem disciplined_of_access_eq {result : Except StepError StepResult} {next : Session}
    (hleaves : operation.leaves = false) (harrives : ¬ operation.Arrives session.context)
    (hresult : ∀ error, result ≠ .error (.render error)) (haccess : next.access = session.access) :
    Disciplined session operation result next := by
  have hborrow : operation ≠ .borrow := by
    rintro rfl
    exact harrives trivial
  constructor
  · constructor
    · rintro ⟨error, h, _⟩
      exact (hresult error h).elim
    · exact fun h => (harrives h.2).elim
  · exact fun _ _ => haccess
  · intro _ h
    cases hleaves.symm.trans h
  · intro h
    simp [haccess, h, hborrow]

/-- The step that begins a borrow, if there is none and the repository can be looked for. -/
theorem disciplined_borrow (result : Option Git.Repository → StepResult) :
    Disciplined session .borrow (session.draw session.context.borrow result).1
      (session.draw session.context.borrow result).2 := by
  have hheld : session.context.borrow.Respects True := Context.respects_borrow
  constructor
  · refine stoppedByBorrow_draw_iff _ result hheld fun h error herror => ?_
    have hkeeps : Draw.KeepsFree session.context.discover := Context.keepsFree_discover
    refine (hkeeps session.access h).2 error ?_
    rw [Context.borrow_of_free h] at herror
    split at herror
    · cases herror
    · rename_i hdiscover
      rw [hdiscover]
      exact herror
  · exact fun hborrowed _ => hheld.unchanged _ hborrowed
  · intro _ h
    cases h
  · intro h
    have hkept := (Context.borrowed_discover session.context session.access).trans h
    rw [Session.draw_eq, Context.borrow_of_free h]
    rcases hdiscover : session.context.discover session.access with ⟨error | repository, next⟩
    · have hnext : next.borrowed = false := by
        rw [hdiscover] at hkept
        exact hkept
      simp [hnext, Except.map, Except.mapError]
    · simp [Except.map, Except.mapError]

/-- A step that leaves the borrow, or fails if there is none. -/
theorem disciplined_endBorrow (value : StepResult) (hleaves : operation.leaves = true)
    (harrives : ¬ operation.Arrives session.context) :
    Disciplined session operation (session.endBorrow value).1 (session.endBorrow value).2 := by
  have hborrow : operation ≠ .borrow := by
    rintro rfl
    exact harrives trivial
  unfold Session.endBorrow
  split
  · rename_i hborrowed
    constructor
    · constructor
      · rintro ⟨error, h, _⟩
        cases h
      · exact fun h => (harrives h.2).elim
    · intro _ h
      cases h.symm.trans hleaves
    · exact fun _ _ => ⟨⟨value, rfl⟩, rfl⟩
    · intro h
      cases h.symm.trans hborrowed
  · rename_i hborrowed
    constructor
    · constructor
      · rintro ⟨error, h, _⟩
        cases h
      · exact fun h => (harrives h.2).elim
    · exact fun _ _ => rfl
    · exact fun h => (hborrowed h).elim
    · simp [hborrowed, hborrow]

/-- Every step keeps to the discipline. -/
theorem disciplined_step (session : Session) (operation : Operation) :
    Disciplined session operation (session.step operation).1 (session.step operation).2 := by
  have htakes := session.takes_step operation
  generalize session.step operation = outcome at htakes
  cases htakes with
  | stays hleaves harrives hresult haccess =>
      exact disciplined_of_access_eq hleaves harrives hresult haccess
  | ends value hleaves harrives => exact disciplined_endBorrow value hleaves harrives
  | repository =>
      exact disciplined_draw session.context.repository _ rfl (by simp)
        Context.keepsFree_repository Context.respects_repository
  | borrow => exact disciplined_borrow _
  | @render template tokens harrives =>
      refine disciplined_draw _ .prompt rfl (by simp) (Context.keepsFree_render tokens) ?_
      rw [harrives]
      exact Context.respects_render tokens
  | @component identifier options name harrives =>
      refine disciplined_draw _ .slot rfl (by simp) (Component.keepsFree_run name options) ?_
      rw [harrives]
      exact Component.respects_run name options
  | @handle identifier options name harrives =>
      refine disciplined_draw _ _ rfl (by simp) (Component.keepsFree_handle name options) ?_
      rw [harrives]
      exact Component.respects_handle name options
  | style name =>
      exact disciplined_draw (.ofExcept (session.context.styleSequence name)) _ rfl (by simp)
        (.ofExcept fun error => Context.isOwn_of_styleSequence)
        (.ofExcept fun error => Context.isOwn_of_styleSequence)

end

/-! ## Runs -/

namespace Session

/-- The session after some steps. -/
def after (session : Session) (operations : List Operation) : Session :=
  operations.foldl (fun session operation => (session.step operation).2) session

theorem after_take_succ {session : Session} {operations : List Operation} {place : Nat}
    {operation : Operation} (h : operations[place]? = some operation) :
    session.after (operations.take (place + 1)) =
      ((session.after (operations.take place)).step operation).2 := by
  rw [List.take_add_one, h, after, List.foldl_append]
  rfl

/-- A run takes each step from the session after the steps in front of it. -/
theorem getElem?_run {session : Session} {operations : List Operation} {place : Nat}
    {operation : Operation} (h : operations[place]? = some operation) :
    (session.run operations)[place]? =
      some ((session.after (operations.take place)).step operation) := by
  induction operations generalizing session place with
  | nil => cases h
  | cons first rest ih =>
      cases place with
      | zero =>
          obtain rfl := Option.some.inj h
          rfl
      | succ place => exact ih h

theorem getElem?_run_after {session : Session} {operations : List Operation} {place : Nat}
    {operation : Operation} (h : operations[place]? = some operation) :
    (session.run operations)[place]? =
      some (((session.after (operations.take place)).step operation).1,
        session.after (operations.take (place + 1))) := by
  rw [getElem?_run h, after_take_succ h]

/-- A step of a run succeeds in borrowing the repository, and no step after it and before another
place leaves the borrow. -/
structure BorrowedSince (session : Session) (operations : List Operation) (start stop : Nat) :
    Prop where
  lt : start < stop
  isBorrow : operations[start]? = some .borrow
  succeeds : ∃ value next, (session.run operations)[start]? = some (.ok value, next)
  kept : ∀ place operation, start < place → place < stop → operations[place]? = some operation →
    operation.leaves = false

variable {session : Session} {operations : List Operation}

/-- A step prolongs the borrow that there is, or begins one. -/
theorem borrowedSince_succ_iff {start stop : Nat} {operation : Operation}
    (h : operations[stop]? = some operation) :
    session.BorrowedSince operations start (stop + 1) ↔
      (session.BorrowedSince operations start stop ∧ operation.leaves = false) ∨
      (start = stop ∧ operation = .borrow ∧
        ∃ value, ((session.after (operations.take stop)).step operation).1 = .ok value) := by
  constructor
  · intro hsince
    rcases Nat.lt_succ_iff_lt_or_eq.mp hsince.lt with hlt | rfl
    · refine .inl ⟨⟨hlt, hsince.isBorrow, hsince.succeeds, ?_⟩, ?_⟩
      · exact fun place other hafter hbefore => hsince.kept place other hafter (by omega)
      · exact hsince.kept stop operation hlt (by omega) h
    · obtain ⟨value, next, hrun⟩ := hsince.succeeds
      rw [getElem?_run h] at hrun
      obtain rfl := Option.some.inj (h.symm.trans hsince.isBorrow)
      exact .inr ⟨rfl, rfl, value, congrArg Prod.fst (Option.some.inj hrun)⟩
  · rintro (⟨hsince, hleaves⟩ | ⟨rfl, rfl, value, hvalue⟩)
    · refine ⟨by have := hsince.lt; omega, hsince.isBorrow, hsince.succeeds, ?_⟩
      intro place other hafter hbefore hother
      rcases Nat.lt_succ_iff_lt_or_eq.mp hbefore with hlt | rfl
      · exact hsince.kept place other hafter hlt hother
      · obtain rfl := Option.some.inj (h.symm.trans hother)
        exact hleaves
    · let next := ((session.after (operations.take start)).step .borrow).2
      refine ⟨by omega, h, ⟨value, next, ?_⟩, fun place other hafter hbefore => by omega⟩
      rw [getElem?_run h, ← hvalue]

/-- The repository is borrowed exactly from a step that succeeds in borrowing it to one that leaves
the borrow. -/
theorem borrowed_after_iff (hfree : session.access.borrowed = false) {stop : Nat}
    (hstop : stop ≤ operations.length) :
    (session.after (operations.take stop)).access.borrowed = true ↔
      ∃ start, session.BorrowedSince operations start stop := by
  induction stop with
  | zero =>
      constructor
      · intro h
        cases hfree.symm.trans h
      · rintro ⟨start, h⟩
        cases h.lt
  | succ stop ih =>
      have ih := ih (by omega)
      obtain ⟨operation, hoperation⟩ : ∃ operation, operations[stop]? = some operation :=
        ⟨_, List.getElem?_eq_getElem (by omega)⟩
      have hstep := disciplined_step (session.after (operations.take stop)) operation
      rw [after_take_succ hoperation]
      simp only [borrowedSince_succ_iff hoperation]
      cases hborrowed : (session.after (operations.take stop)).access.borrowed with
      | true =>
          obtain ⟨start, hsince⟩ := ih.mp hborrowed
          cases hleaves : operation.leaves with
          | true =>
              have hreleased := (hstep.left hborrowed hleaves).2
              constructor
              · intro h
                rw [hreleased] at h
                cases h
              · rintro ⟨_, ⟨_, h⟩ | ⟨_, rfl, _⟩⟩
                · cases h
                · cases hleaves
          | false =>
              rw [hstep.held hborrowed hleaves]
              exact ⟨fun _ => ⟨start, .inl ⟨hsince, rfl⟩⟩, fun _ => hborrowed⟩
      | false =>
          rw [hstep.begun_iff hborrowed]
          constructor
          · exact fun h => ⟨stop, .inr ⟨rfl, h⟩⟩
          · rintro ⟨start, ⟨hsince, _⟩ | ⟨_, h⟩⟩
            · cases hborrowed.symm.trans (ih.mpr ⟨start, hsince⟩)
            · exact h

/-- In every session that starts with a free repository, the repository is borrowed exactly from a
step that succeeds in borrowing it to the one that leaves the borrow, and every step keeps to the
discipline: during a borrow it changes nothing and is stopped when it arrives at the repository; at
other times it is not stopped, and leaves no borrow behind unless it succeeds in borrowing. -/
theorem run_disciplined (hfree : session.access.borrowed = false) (operations : List Operation) :
    (∀ stop ≤ operations.length,
      ((session.after (operations.take stop)).access.borrowed = true ↔
        ∃ start, session.BorrowedSince operations start stop)) ∧
    ∀ place operation, operations[place]? = some operation →
      ∃ result, (session.run operations)[place]? =
          some (result, session.after (operations.take (place + 1))) ∧
        Disciplined (session.after (operations.take place)) operation result
          (session.after (operations.take (place + 1))) := by
  refine ⟨fun stop hstop => borrowed_after_iff hfree hstop, fun place operation h => ?_⟩
  refine ⟨_, getElem?_run_after h, ?_⟩
  rw [after_take_succ h]
  exact disciplined_step _ operation

theorem run_disciplined_missingGit :
    let session : Session := ⟨homeContext missingGit, {}⟩
    let operations : List Operation := [.borrow, .repository, .release, .repository]
    session.access.borrowed = false ∧
    (∃ result next, (session.run operations)[1]? = some (result, next) ∧
      StoppedByBorrow result ∧ next.access.borrowed = true) ∧
    ∃ result next, (session.run operations)[3]? = some (result, next) ∧
      ¬ StoppedByBorrow result ∧ next.access.borrowed = false := by
  intro session operations
  have hfree : session.access.borrowed = false := rfl
  have hheld : (session.after (operations.take 1)).access.borrowed = true := rfl
  have hended : (session.after (operations.take 3)).access.borrowed = false := rfl
  have hsteps := (run_disciplined hfree operations).2
  obtain ⟨result, hrun, hstep⟩ := hsteps 1 .repository rfl
  obtain ⟨last, hlastrun, hlast⟩ := hsteps 3 .repository rfl
  refine ⟨hfree, ⟨result, _, hrun, hstep.stopped_iff.mpr ⟨hheld, trivial⟩, ?_⟩,
    last, _, hlastrun, ?_, ?_⟩
  · rw [hstep.held hheld rfl]
    exact hheld
  · rw [hlast.stopped_iff, hended]
    simp
  · rw [Bool.eq_false_iff, Ne, hlast.begun_iff hended]
    simp

end Session

end ShellPrompt
