import ShellPrompt.Proofs.Git.Closed

/-! # Unforeseen trouble

Nothing looks for the trouble of a run of git that breaks off or is interrupted. So what the run is
made for ends there, and in that trouble; and nothing ends in such trouble without such a run. -/

namespace ShellPrompt.Git

/-! ## Logs -/

/-- Among the runs with which a log has gone on there is one that brought this trouble. -/
def RanInto (git : Behaviour) (trouble : Trouble) (calls later : List Call) : Prop :=
  ∃ before call, calls <+: before ∧ before ++ [call] <+: later ∧
    (git before call).unforeseen? = some trouble

section

variable {git : Behaviour} {trouble : Trouble} {calls middle later : List Call} {call : Call}

theorem not_ranInto_self : ¬ RanInto git trouble calls calls := by
  rintro ⟨before, call, hbefore, hlast, _⟩
  have hlength := (hlast.trans hbefore).length_le
  rw [List.length_append, List.length_singleton] at hlength
  exact Nat.not_succ_le_self _ hlength

theorem ranInto_concat_iff :
    RanInto git trouble calls (calls ++ [call]) ↔ (git calls call).unforeseen? = some trouble := by
  constructor
  · rintro ⟨before, other, hbefore, hlast, hreply⟩
    have hlength : calls.length = before.length :=
      Nat.le_antisymm hbefore.length_le (by simpa using hlast.length_le)
    obtain rfl := hbefore.eq_of_length hlength
    obtain ⟨_, hcall⟩ := List.append_inj' (hlast.eq_of_length (by simp)) rfl
    obtain rfl := List.singleton_inj.mp hcall
    exact hreply
  · intro hreply
    exact ⟨calls, call, List.prefix_rfl, List.prefix_rfl, hreply⟩

/-- A run of a log that was kept in two parts belongs to one of them. -/
theorem ranInto_trans_iff (hmiddle : calls <+: middle) (hlater : middle <+: later) :
    RanInto git trouble calls later ↔
      RanInto git trouble calls middle ∨ RanInto git trouble middle later := by
  constructor
  · rintro ⟨before, call, hbefore, hlast, hreply⟩
    rcases List.prefix_or_prefix_of_prefix hlast hlater with hfirst | hsecond
    · exact .inl ⟨before, call, hbefore, hfirst, hreply⟩
    · rcases List.prefix_concat_iff.mp hsecond with rfl | hsecond
      · exact .inl ⟨before, call, hbefore, List.prefix_rfl, hreply⟩
      · exact .inr ⟨before, call, hsecond, hlast, hreply⟩
  · rintro (⟨before, call, hbefore, hlast, hreply⟩ | ⟨before, call, hbefore, hlast, hreply⟩)
    · exact ⟨before, call, hbefore, hlast.trans hlater, hreply⟩
    · exact ⟨before, call, hmiddle.trans hbefore, hlast, hreply⟩

end

/-! ## Actions -/

/-- An action that keeps a log of runs in its state is exposed to their trouble: it goes on with the
log, and it fails because of unforeseen trouble exactly if one of the runs that it makes brings it. -/
structure Exposed {σ ε α : Type} (git : Behaviour) (log : σ → List Call) (cause : Trouble → ε)
    (action : Action σ ε α) : Prop where
  logged : ∀ state, log state <+: log (action state).2
  fails_iff : ∀ state trouble, trouble.Unforeseen →
    ((action state).1 = .error (cause trouble) ↔
      RanInto git trouble (log state) (log (action state).2))

namespace Exposed

variable {σ ε α β : Type} {git : Behaviour} {log : σ → List Call} {cause : Trouble → ε}

/-- An action that makes no run is not exposed to anything. -/
theorem of_idle {action : Action σ ε α} (hlog : ∀ state, log (action state).2 = log state)
    (herror : ∀ state trouble, trouble.Unforeseen → (action state).1 ≠ .error (cause trouble)) :
    Exposed git log cause action := by
  refine ⟨fun state => (hlog state).symm ▸ List.prefix_rfl, fun state trouble htrouble => ?_⟩
  rw [hlog]
  exact iff_of_false (herror state trouble htrouble) not_ranInto_self

theorem pure (value : α) : Exposed git log cause (Pure.pure value : Action σ ε α) :=
  of_idle (fun _ => rfl) fun _ _ _ h => by cases h

theorem bind {action : Action σ ε α} {next : α → Action σ ε β} (h : Exposed git log cause action)
    (hnext : ∀ value, Exposed git log cause (next value)) :
    Exposed git log cause (action >>= next) := by
  refine ⟨fun state => ?_, fun state trouble htrouble => ?_⟩
  · have hlog := h.logged state
    rw [Action.bind_run]
    rcases haction : action state with ⟨error | value, between⟩
    · rwa [haction] at hlog
    · rw [haction] at hlog
      exact hlog.trans ((hnext value).logged between)
  · have hlog := h.logged state
    have hfails := h.fails_iff state trouble htrouble
    rw [Action.bind_run]
    rcases haction : action state with ⟨error | value, between⟩
    · rw [haction, Except.error.injEq] at hfails
      rwa [Except.error.injEq]
    · rw [haction] at hlog hfails
      have hfirst : ¬ RanInto git trouble (log state) (log between) :=
        fun h => by cases hfails.mpr h
      rw [ranInto_trans_iff hlog ((hnext value).logged between), or_iff_right hfirst]
      exact (hnext value).fails_iff between trouble htrouble

theorem closed : Action.Closed (fun {α} => Exposed (α := α) git log cause) := ⟨pure, bind⟩

/-- What an action does may be that of another one in each state. -/
theorem of_forall {action : Action σ ε α}
    (h : ∀ state, ∃ other, Exposed git log cause other ∧ action state = other state) :
    Exposed git log cause action := by
  refine ⟨fun state => ?_, fun state trouble htrouble => ?_⟩
  · obtain ⟨other, hother, heq⟩ := h state
    rw [heq]
    exact hother.logged state
  · obtain ⟨other, hother, heq⟩ := h state
    rw [heq]
    exact hother.fails_iff state trouble htrouble

end Exposed

/-! ## Runs of git -/

/-- Runs of git are exposed to their own trouble, which they leave as it is. -/
abbrev Run.IsExposed {α : Type} (git : Behaviour) (action : Run α) : Prop :=
  Exposed git id id action

section

variable {git : Behaviour}

theorem isExposed_run (call : Call) : (run git call).IsExposed git := by
  refine ⟨fun calls => ?_, fun calls trouble htrouble => ?_⟩
  · rw [run_eq]
    exact List.prefix_append calls [call]
  · rw [run_eq]
    exact (Reply.result_eq_error_iff htrouble).trans ranInto_concat_iff.symm

theorem isExposed_attempt {α : Type} (call : Call) (read : Finished → Option α) :
    (attempt git call read).IsExposed git :=
  ⟨fun calls => List.prefix_append calls [call],
    fun _ _ _ => Reply.answer_eq_error_iff.trans ranInto_concat_iff.symm⟩

theorem isExposed_closed (git : Behaviour) :
    Run.Closed git (fun _ => True) (Run.IsExposed git) where
  pure := .pure
  bind := .bind
  fail _ := .of_idle (fun _ => rfl) fun _ _ htrouble h => by cases h; cases htrouble
  run call _ := isExposed_run call
  attempt call read _ := isExposed_attempt call read

theorem isExposed_discover (directory : Path) (timeout : Binary64) :
    (Repository.discover git directory timeout).IsExposed git :=
  (isExposed_closed git).discover trivial trivial directory timeout

/-- With orderly git a discovery succeeds unless git is stuck. -/
theorem discover_cases {directory : Path} {timeout : Binary64} {calls : List Call}
    (h : Orderly git) :
    (∃ repository last, Repository.discover git directory timeout calls = (.ok repository, last)) ∨
      ∃ failure last, Stuck git directory timeout calls failure ∧
        Repository.discover git directory timeout calls =
          (.error (.error (.failure failure)), last) := by
  have hunforeseen : ∀ trouble, trouble.Unforeseen →
      (Repository.discover git directory timeout calls).1 ≠ .error trouble := by
    intro trouble htrouble hdiscover
    obtain ⟨before, call, _, _, hreply⟩ :=
      ((isExposed_discover directory timeout).fails_iff calls trouble htrouble).mp hdiscover
    cases (h before call).symm.trans hreply
  rcases hdiscover : Repository.discover git directory timeout calls with ⟨trouble | repository, last⟩
  · have hresult : (Repository.discover git directory timeout calls).1 = .error trouble := by
      rw [hdiscover]
    rcases trouble.failure_or_unforeseen with ⟨failure, rfl⟩ | htrouble
    · exact .inr ⟨failure, last, discover_eq_failure_iff.mp hresult, rfl⟩
    · exact (hunforeseen trouble htrouble hresult).elim
  · exact .inl ⟨repository, last, rfl⟩

end

end ShellPrompt.Git
