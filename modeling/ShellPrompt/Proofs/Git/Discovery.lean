import ShellPrompt.Git.Repository

/-! # Questions that git leaves open

Nearly all questions are put to git in the same way: it is run once, and where it fails there is no
answer. The second question of a discovery is the exception. If git cannot be run for it, the
discovery fails. -/

namespace ShellPrompt.Git

/-- A reply that is of no use: git ends badly, cannot be started or takes too long. -/
inductive Reply.Fails : Reply → Prop where
  | refused {status : Int} (h : status ≠ 0) (output errors : String) :
    Fails (.finished status output errors)
  | notStarted (reason : String) : Fails (.notStarted reason)
  | timedOut : Fails .timedOut

/-- Trouble that nothing looks for: a run of git broke off, or was interrupted. -/
inductive Trouble.Unforeseen : Trouble → Prop where
  | broken (breakage : Breakage) : Unforeseen (.error (.broken breakage))
  | interrupted : Unforeseen .interrupted

theorem Trouble.failure_or_unforeseen (trouble : Trouble) :
    (∃ failure, trouble = .error (.failure failure)) ∨ trouble.Unforeseen := by
  match trouble with
  | .error (.failure failure) => exact .inl ⟨failure, rfl⟩
  | .error (.broken breakage) => exact .inr (.broken breakage)
  | .interrupted => exact .inr .interrupted

/-- The unforeseen trouble that a reply brings, if it brings any. -/
def Reply.unforeseen? : Reply → Option Trouble
  | .finished .. | .notStarted _ | .timedOut => none
  | .broken breakage => some (.error (.broken breakage))
  | .interrupted => some .interrupted

/-- Every run of git ends, cannot be started or takes too long. -/
def Orderly (git : Behaviour) : Prop := ∀ calls call, (git calls call).unforeseen? = none

/-- What a reply comes to as the result of a run. -/
def Reply.result (call : Call) : Reply → Except Trouble Finished
  | .finished status output errors => .ok ⟨status, output, errors⟩
  | .notStarted reason => .error (.error (.failure (.notStarted call.command reason)))
  | .timedOut => .error (.error (.failure (.timedOut call.command call.timeout)))
  | .broken breakage => .error (.error (.broken breakage))
  | .interrupted => .error .interrupted

theorem Reply.result_eq_error_iff {call : Call} {reply : Reply} {trouble : Trouble}
    (h : trouble.Unforeseen) :
    reply.result call = .error trouble ↔ reply.unforeseen? = some trouble := by
  cases h <;> cases reply <;> simp [result, unforeseen?]

theorem run_eq (git : Behaviour) (call : Call) (calls : List Call) :
    run git call calls = ((git calls call).result call, calls ++ [call]) := by
  rw [run]
  cases git calls call <;> rfl

/-! ## Questions that are given up -/

/-- What comes of a reply where a failure is no answer. -/
def Reply.answer {α : Type} (read : Finished → Option α) : Reply → Except Trouble (Option α)
  | .finished status output errors => .ok (read ⟨status, output, errors⟩)
  | .notStarted _ | .timedOut => .ok none
  | .broken breakage => .error (.error (.broken breakage))
  | .interrupted => .error .interrupted

/-- Runs git once. There is no answer where git fails. -/
def attempt {α : Type} (git : Behaviour) (call : Call) (read : Finished → Option α) :
    Run (Option α) := fun calls => ((git calls call).answer read, calls ++ [call])

section

variable {α : Type} {git : Behaviour} {call : Call} {calls : List Call}
  {read : Finished → Option α}

/-- A question that is given up where git cannot be run. -/
theorem orNone_run_eq_attempt :
    (Repository.orNone do return read (← run git call)) = attempt git call read := by
  funext calls
  rw [Repository.orNone, Action.orElse, Action.bind_run, run_eq, attempt]
  cases git calls call <;> rfl

/-- A question that is given up where git ends badly, too. -/
theorem orNone_output_eq_attempt (git : Behaviour) (repository : Repository) (command : Command)
    (read : String → α) :
    (Repository.orNone do return some (read (← repository.output git command))) =
      attempt git ⟨command, repository.path, repository.timeout⟩ fun reply =>
        if reply.status = 0 then some (read reply.output) else none := by
  funext calls
  rw [Repository.orNone, Action.orElse, Action.bind_run, Repository.output, Action.bind_run,
    Repository.ask, run_eq, attempt]
  cases git calls ⟨command, repository.path, repository.timeout⟩ with
  | finished status output errors =>
      by_cases hstatus : status = 0
      · simp only [Reply.result, Reply.answer, if_pos hstatus]
        rfl
      · simp only [Reply.result, Reply.answer, if_neg hstatus]
        rfl
  | _ => rfl

theorem map_attempt {β : Type} {f : Option α → Option β} (hf : f none = none) :
    f <$> attempt git call read = attempt git call fun reply => f (read reply) := by
  funext calls
  rw [Action.map_run, attempt, attempt]
  cases git calls call with
  | notStarted reason => simp only [Reply.answer, Except.map, hf]
  | timedOut => simp only [Reply.answer, Except.map, hf]
  | _ => rfl

/-- There is an answer, or none, unless there is unforeseen trouble. -/
theorem Reply.answer_eq_error_iff {reply : Reply} {trouble : Trouble} :
    reply.answer read = .error trouble ↔ reply.unforeseen? = some trouble := by
  cases reply <;> simp [answer, unforeseen?]

theorem Reply.Fails.answer_eq {reply : Reply} (h : reply.Fails)
    (hread : ∀ finished, finished.status ≠ 0 → read finished = none) :
    reply.answer read = .ok none := by
  cases h with
  | refused hstatus output errors => rw [Reply.answer, hread _ hstatus]
  | notStarted reason => rfl
  | timedOut => rfl

theorem attempt_of_fails (h : (git calls call).Fails)
    (hread : ∀ finished, finished.status ≠ 0 → read finished = none) :
    attempt git call read calls = (.ok none, calls ++ [call]) := by
  rw [attempt, h.answer_eq hread]

theorem attempt_eq_ok (h : Orderly git) :
    ∃ value, attempt git call read calls = (.ok value, calls ++ [call]) := by
  rw [attempt]
  cases hanswer : (git calls call).answer read with
  | error trouble => cases (h calls call).symm.trans (Reply.answer_eq_error_iff.mp hanswer)
  | ok value => exact ⟨value, rfl⟩

end

/-! ## Discoveries -/

section

variable {git : Behaviour} {directory : Path} {timeout : Binary64} {calls : List Call}

/-- The first run of git in a discovery. -/
def locateCall (directory : Path) (timeout : Binary64) : Call := ⟨.locate, directory, timeout⟩

/-- The second run of git in a discovery. -/
def topLevelCall (directory : Path) (timeout : Binary64) : Call := ⟨.topLevel, directory, timeout⟩

/-- Where git says that the repository of a directory is, and whether it is bare. -/
def located (git : Behaviour) (directory : Path) (timeout : Binary64) (calls : List Call) :
    Except Trouble (Option (Path × Bool)) :=
  (git calls (locateCall directory timeout)).answer Repository.location?

/-- How git replies to the second question of a discovery. -/
def rootReply (git : Behaviour) (directory : Path) (timeout : Binary64) (calls : List Call) :
    Reply :=
  git (calls ++ [locateCall directory timeout]) (topLevelCall directory timeout)

theorem locate_eq : Repository.locate git directory timeout =
    attempt git (locateCall directory timeout) Repository.location? :=
  orNone_run_eq_attempt

theorem location?_of_refused {reply : Finished} (h : reply.status ≠ 0) :
    Repository.location? reply = none := by
  unfold Repository.location?
  split
  · rw [if_neg h]
  · rfl

theorem answer?_of_refused {reply : Finished} (h : reply.status ≠ 0) :
    Repository.answer? reply = none := by
  rw [Repository.answer?, if_neg fun hall => h hall.1]

theorem workdirOf_of_refused {reply : Finished} (h : reply.status ≠ 0) :
    Repository.workdirOf reply = none := by
  rw [Repository.workdirOf, if_neg fun hall => h hall.1]

/-- A discovery comes to a repository or to none after the first run, or takes a second one that
tells the working tree. -/
theorem discover_eq : Repository.discover git directory timeout calls =
    match located git directory timeout calls with
    | .error trouble => (.error trouble, calls ++ [locateCall directory timeout])
    | .ok none => (.ok none, calls ++ [locateCall directory timeout])
    | .ok (some (gitDir, true)) =>
      (.ok (some ⟨gitDir, none, timeout⟩), calls ++ [locateCall directory timeout])
    | .ok (some (gitDir, false)) =>
      (((rootReply git directory timeout calls).result (topLevelCall directory timeout)).map
          fun reply => some ⟨gitDir, Repository.workdirOf reply, timeout⟩,
        calls ++ [locateCall directory timeout, topLevelCall directory timeout]) := by
  rw [Repository.discover, Action.bind_run, locate_eq, attempt, located]
  cases (git calls (locateCall directory timeout)).answer Repository.location? with
  | error trouble => rfl
  | ok location =>
      cases location with
      | none => rfl
      | some place =>
          obtain ⟨gitDir, _ | _⟩ := place
          · rw [rootReply, topLevelCall]
            dsimp only
            rw [Action.bind_run, run_eq, List.append_assoc]
            cases git (calls ++ [locateCall directory timeout]) ⟨.topLevel, directory, timeout⟩ <;>
              rfl
          · rfl

/-- Git tells where the repository of a directory is, and that it is not bare, but cannot be run to
tell the root of the working tree. -/
inductive Stuck (git : Behaviour) (directory : Path) (timeout : Binary64) (calls : List Call) :
    Failure → Prop where
  | notStarted {gitDir : Path} {reason : String}
    (hlocated : located git directory timeout calls = .ok (some (gitDir, false)))
    (hroot : rootReply git directory timeout calls = .notStarted reason) :
    Stuck git directory timeout calls (.notStarted .topLevel reason)
  | timedOut {gitDir : Path}
    (hlocated : located git directory timeout calls = .ok (some (gitDir, false)))
    (hroot : rootReply git directory timeout calls = .timedOut) :
    Stuck git directory timeout calls (.timedOut .topLevel timeout)

theorem answer_ne_failure {α : Type} {read : Finished → Option α} {reply : Reply}
    {failure : Failure} : reply.answer read ≠ .error (.error (.failure failure)) := by
  cases reply <;> simp [Reply.answer]

/-- A discovery fails for no other reason. -/
theorem discover_eq_failure_iff {failure : Failure} :
    (Repository.discover git directory timeout calls).1 = .error (.error (.failure failure)) ↔
      Stuck git directory timeout calls failure := by
  constructor
  · intro h
    rw [discover_eq] at h
    split at h
    · rename_i trouble hlocated
      obtain rfl := Except.error.inj h
      exact (answer_ne_failure hlocated).elim
    · cases h
    · cases h
    · rename_i gitDir hlocated
      cases hroot : rootReply git directory timeout calls with
      | finished status output errors =>
          rw [hroot] at h
          cases h
      | notStarted reason =>
          rw [hroot] at h
          cases h
          exact .notStarted hlocated hroot
      | timedOut =>
          rw [hroot] at h
          cases h
          exact .timedOut hlocated hroot
      | broken breakage =>
          rw [hroot] at h
          cases h
      | interrupted =>
          rw [hroot] at h
          cases h
  · rintro (⟨hlocated, hroot⟩ | ⟨hlocated, hroot⟩)
    · rw [discover_eq, hlocated]
      simp only [hroot]
      rfl
    · rw [discover_eq, hlocated]
      simp only [hroot]
      rfl

end

end ShellPrompt.Git
