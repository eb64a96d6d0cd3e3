import ShellPrompt.Proofs.Prompt.Leaves

/-! # Git that always answers in the same way

With such git, what comes of drawing and which runs of git are made for it depend on what is known
about the repository, and not on the runs that came before. -/

namespace ShellPrompt

/-! ## Runs of git -/

namespace Git

/-- Git answers a call in the same way whatever it was run for before. -/
def Unvarying (git : Behaviour) : Prop := ∀ calls call, git calls call = git [] call

/-- The runs that came before have no part in the result and in which runs are made. -/
def Run.Steady {α : Type} (run : Run α) : Prop :=
  ∃ result asked, ∀ calls, run calls = (result, calls ++ asked)

namespace Run.Steady

variable {α β : Type} {git : Behaviour}

theorem pure (value : α) : Steady (Pure.pure value : Run α) :=
  ⟨.ok value, [], fun calls => by rw [List.append_nil]; rfl⟩

theorem fail (trouble : Trouble) : Steady (Action.fail trouble : Run α) :=
  ⟨.error trouble, [], fun calls => by rw [List.append_nil]; rfl⟩

theorem run (hgit : Unvarying git) (call : Call) : Steady (Git.run git call) :=
  ⟨(git [] call).result call, [call], fun calls => by rw [run_eq, hgit calls call]⟩

theorem attempt (hgit : Unvarying git) (call : Call) (read : Finished → Option α) :
    Steady (Git.attempt git call read) :=
  ⟨(git [] call).answer read, [call], fun calls => by rw [Git.attempt, hgit calls call]⟩

theorem bind {first : Run α} {next : α → Run β} (h : Steady first)
    (hnext : ∀ value, Steady (next value)) : Steady (first >>= next) := by
  obtain ⟨result, asked, hfirst⟩ := h
  cases result with
  | error trouble => exact ⟨.error trouble, asked, fun calls => by rw [Action.bind_run, hfirst]⟩
  | ok value =>
      obtain ⟨result, more, hsecond⟩ := hnext value
      refine ⟨result, asked ++ more, fun calls => ?_⟩
      rw [Action.bind_run, hfirst]
      exact (hsecond _).trans (by rw [List.append_assoc])

theorem closed (hgit : Unvarying git) : Closed git (fun _ => True) Steady where
  pure := .pure
  bind := .bind
  fail failure := .fail (.error (.failure failure))
  run call _ := .run hgit call
  attempt call read _ := .attempt hgit call read

end Run.Steady

theorem steady_discover {git : Behaviour} (hgit : Unvarying git) (directory : Path)
    (timeout : Binary64) : Run.Steady (Repository.discover git directory timeout) :=
  (Run.Steady.closed hgit).discover trivial trivial directory timeout

end Git

/-! ## Drawing -/

/-- With a free repository, the runs of git that came before have no part in the result and in which
runs are made. The repository is free afterwards. -/
def Draw.Steady {α : Type} (action : Draw α) : Prop :=
  ∀ discovery, ∃ result asked known, ∀ calls,
    action ⟨calls, discovery, false⟩ = (result, ⟨calls ++ asked, known, false⟩)

namespace Draw.Steady

variable {α β : Type}

theorem ofExcept (result : Except RenderError α) : Steady (.ofExcept result) :=
  fun discovery => ⟨result, [], discovery, fun calls => by rw [List.append_nil]; rfl⟩

theorem ofRun {run : Git.Run α} (h : run.Steady) : Steady (Draw.ofRun run) := by
  intro discovery
  obtain ⟨result, asked, hrun⟩ := h
  exact ⟨result.mapError .ofTrouble, asked, discovery, fun calls => by rw [ofRun_run, hrun]⟩

theorem bind {action : Draw α} {next : α → Draw β} (h : Steady action)
    (hnext : ∀ value, Steady (next value)) : Steady (action >>= next) := by
  intro discovery
  obtain ⟨result, asked, known, haction⟩ := h discovery
  cases result with
  | error error =>
      exact ⟨.error error, asked, known, fun calls => by rw [Action.bind_run, haction]⟩
  | ok value =>
      obtain ⟨result, more, last, hlast⟩ := hnext value known
      refine ⟨result, asked ++ more, last, fun calls => ?_⟩
      rw [Action.bind_run, haction]
      exact (hlast _).trans (by rw [List.append_assoc])

theorem closed : Action.Closed Steady := ⟨fun value => ofExcept (.ok value), bind⟩

/-- Only what an action does with a free repository counts. -/
theorem congr {action other : Draw α} (hother : Steady other)
    (h : ∀ access : Access, access.borrowed = false → action access = other access) :
    Steady action := by
  intro discovery
  obtain ⟨result, asked, known, heq⟩ := hother discovery
  exact ⟨result, asked, known, fun calls => (h _ rfl).trans (heq calls)⟩

end Draw.Steady

namespace Context

open Draw

variable {context : Context}

theorem steady_discover (hgit : Git.Unvarying context.git) : Steady context.discover := by
  intro discovery
  cases discovery with
  | done repository =>
      refine ⟨.ok repository, [], .done repository, fun calls => ?_⟩
      rw [discover_of_done rfl, List.append_nil]
  | pending =>
      obtain ⟨result, asked, hrun⟩ :=
        Git.steady_discover hgit context.currentDir context.gitTimeout
      cases result with
      | error trouble =>
          refine ⟨.error (.ofTrouble trouble), asked, .pending, fun calls => ?_⟩
          rw [discover_of_pending rfl, hrun]
      | ok repository =>
          refine ⟨.ok repository, asked, .done repository, fun calls => ?_⟩
          rw [discover_of_pending rfl, hrun]

theorem steady_slot (hgit : Git.Unvarying context.git) (leaf : Leaf) :
    Steady (context.slot leaf) := by
  cases hreaches : leaf.reaches with
  | false =>
      rw [slot_of_not_reaches hreaches]
      exact .ofExcept _
  | true =>
      obtain ⟨name, options, rfl⟩ := Leaf.exists_component hreaches
      refine .congr ?_ fun access hfree => slot_of_free hreaches hfree
      exact (steady_discover hgit).bind fun repository =>
        (Steady.ofRun (Component.closed_found (Git.Run.Steady.closed hgit) (fun _ _ => trivial) name
          repository)).bind fun shown => .ofExcept _

theorem steady_render (hgit : Git.Unvarying context.git) (tokens : List Token) :
    Steady (context.render tokens) := by
  rw [render_eq_map]
  exact Steady.closed.map _ (Steady.closed.mapM (steady_slot hgit) _)

end Context

end ShellPrompt
