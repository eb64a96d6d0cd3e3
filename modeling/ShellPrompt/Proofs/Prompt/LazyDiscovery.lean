import ShellPrompt.Proofs.Prompt.DiscoveryOnce
import ShellPrompt.Proofs.Prompt.SteadyGit

/-! # Discoveries that are put off

With git that always answers in the same way, it does not show in a prompt when the repository was
looked for. The prompt is the same if that was done beforehand, and it is the same after everything
that was drawn before it. -/

namespace ShellPrompt

open Git

/-! ## One prompt -/

namespace Context

variable {context : Context} {leaves : List Leaf} {tokens : List Token}
  {repository : Option Repository} {asked : List Call}

/-- Leaves that do not arrive at the repository are settled beforehand. -/
theorem exists_ofExcept_of_not_arrives (h : ¬ context.Arrives leaves) :
    ∃ result, leaves.mapM context.slot = .ofExcept result := by
  refine mapM_slot_induction
    (motive := fun action arrives => ¬ arrives → ∃ result, action = .ofExcept result)
    (fun result _ _ => ⟨result, rfl⟩) (fun leaf next _ hnot => (hnot trivial).elim)
    (fun action arrives slot haction hnot => ?_) leaves h
  obtain ⟨result, rfl⟩ := haction hnot
  exact ⟨_, map_ofExcept _ result⟩

/-- Leaves in front of the first one that reaches the repository are drawn without git. -/
theorem Arrives.exists_first (h : context.Arrives leaves) :
    ∃ before leaf after slots, leaves = before ++ leaf :: after ∧
      (∀ other ∈ before, other.reaches = false) ∧ leaf.reaches = true ∧
      ∀ access, before.mapM context.slot access = (.ok slots, access) := by
  induction h with
  | @here leaf rest h => exact ⟨[], leaf, rest, [], rfl, by simp, h, fun _ => rfl⟩
  | @later other rest slot h hslot _ ih =>
      obtain ⟨before, leaf, after, slots, rfl, hbefore, hleaf, hslots⟩ := ih
      refine ⟨other :: before, leaf, after, slot :: slots, rfl,
        List.forall_mem_cons.mpr ⟨h, hbefore⟩, hleaf, fun access => ?_⟩
      rw [List.mapM_cons, slot_of_not_reaches h, hslot, Action.bind_run, Action.ofExcept_run]
      dsimp only
      rw [Action.bind_run, hslots]
      rfl

theorem render_of_not_arrives (h : ¬ context.Arrives (context.drawn tokens)) :
    ∃ result, ∀ access, context.render tokens access = (result, access) := by
  obtain ⟨result, hresult⟩ := exists_ofExcept_of_not_arrives h
  rw [render_eq_map, hresult, map_ofExcept]
  exact ⟨_, fun access => rfl⟩

/-- A prompt that arrives at the repository looks for it first. What comes then is the same as with
a repository that has been found before. -/
theorem render_of_arrives (hgit : Unvarying context.git)
    (hdiscover : Repository.discover context.git context.currentDir context.gitTimeout [] =
      (.ok repository, asked)) (h : context.Arrives (context.drawn tokens)) :
    ∃ result more, ∀ calls,
      context.render tokens { calls } =
        (result, { calls := calls ++ asked ++ more, discovery := .done repository }) ∧
      context.render tokens { calls, discovery := .done repository } =
        (result, { calls := calls ++ more, discovery := .done repository }) := by
  obtain ⟨result, more, known, hrender⟩ := steady_render hgit tokens (.done repository)
  obtain rfl : known = .done repository := by
    have hkeeps : Draw.KeepsKnown (context.render tokens) := keepsKnown_render tokens
    have hknown := (hkeeps ⟨[], .done repository, false⟩ repository rfl).discovery
    rwa [hrender] at hknown
  refine ⟨result, more, fun calls => ⟨?_, hrender calls⟩⟩
  have hlook : context.discover { calls } =
      (.ok repository, { calls := calls ++ asked, discovery := .done repository }) := by
    obtain ⟨found, first, hrun⟩ :=
      Git.steady_discover hgit context.currentDir context.gitTimeout
    obtain ⟨rfl, rfl⟩ := Prod.mk.inj ((hrun []).symm.trans hdiscover)
    rw [discover_of_pending rfl, hrun]
    rfl
  rw [(looks_render tokens).first h _ rfl, Action.bind_run, hlook]
  exact hrender _

end Context

/-! ## Sessions -/

/-- What is known about the repository, if anything, is what a discovery comes to. -/
def Access.Sound (context : Context) (access : Access) : Prop :=
  ∀ repository, access.discovery = .done repository →
    (Repository.discover context.git context.currentDir context.gitTimeout []).1 = .ok repository

/-- A prompt does not depend on whether the repository is known. -/
theorem Context.render_of_sound {context : Context} (hgit : Unvarying context.git)
    {access : Access} (hfree : access.borrowed = false) (hsound : access.Sound context)
    (tokens : List Token) : (context.render tokens access).1 = (context.render tokens {}).1 := by
  obtain ⟨calls, discovery, borrowed⟩ := access
  obtain rfl : borrowed = false := hfree
  cases discovery with
  | pending =>
      obtain ⟨result, _, _, hrender⟩ := steady_render hgit tokens .pending
      rw [hrender, hrender]
  | done repository =>
      by_cases harrives : context.Arrives (context.drawn tokens)
      · obtain ⟨_, hdiscover⟩ : ∃ asked, Repository.discover context.git context.currentDir
            context.gitTimeout [] = (.ok repository, asked) := ⟨_, Prod.ext (hsound _ rfl) rfl⟩
        obtain ⟨result, _, hrender⟩ := render_of_arrives hgit hdiscover harrives
        rw [(hrender calls).2, (hrender []).1]
      · obtain ⟨result, hrender⟩ := render_of_not_arrives harrives
        rw [hrender, hrender]

namespace Session

variable {session : Session} {operation : Operation} {operations : List Operation}

theorem context_step (h : ∀ change, operation ≠ .assign change) :
    (session.step operation).2.context = session.context := by
  cases operation with
  | assign change => exact (h change rfl).elim
  | release | releaseByError =>
      rw [step, endBorrow]
      split <;> rfl
  | render template =>
      rw [step]
      split <;> rfl
  | component identifier options | handle identifier options =>
      rw [step, withComponent]
      split <;> rfl
  | condition identifier =>
      rw [step]
      split <;> rfl
  | _ => rfl

/-- A step leaves what is known sound. -/
theorem sound_step (hgit : Unvarying session.context.git)
    (h : session.access.Sound session.context) (operation : Operation) :
    (session.step operation).2.access.Sound session.context := by
  have hkeeps : (session.step operation).2.access.discovery = session.access.discovery →
      (session.step operation).2.access.Sound session.context :=
    fun hdiscovery repository hdone => h repository (hdiscovery.symm.trans hdone)
  have hborrows := disciplined_step session operation
  have hlooks := discoversOnce_step session operation
  cases hdiscovery : session.access.discovery with
  | done repository => exact hkeeps (hlooks.known repository hdiscovery).discovery
  | pending =>
      cases hborrowed : session.access.borrowed with
      | true =>
          cases hleaves : operation.leaves with
          | true => exact hkeeps (by rw [(hborrows.left hborrowed hleaves).2]; rfl)
          | false => exact hkeeps (by rw [hborrows.held hborrowed hleaves])
      | false =>
          by_cases harrives : operation.Arrives session.context
          · cases hlooks.discovers harrives hborrowed hdiscovery with
            | @found repository calls hlookup hknown _ =>
                intro other hdone
                cases hknown.symm.trans hdone
                obtain ⟨result, asked, hrun⟩ := steady_discover hgit session.context.currentDir
                  session.context.gitTimeout
                rw [lookup, hrun] at hlookup
                rw [hrun, (Prod.mk.inj hlookup).1]
            | raised _ _ haccess => exact hkeeps (by rw [haccess])
          · exact hkeeps (by rw [hlooks.idle harrives hborrowed])

/-- Without changes of the context, what is known stays sound. -/
theorem sound_after (hgit : Unvarying session.context.git)
    (h : session.access.Sound session.context)
    (hoperations : ∀ operation ∈ operations, ∀ change, operation ≠ .assign change) :
    (session.after operations).context = session.context ∧
      (session.after operations).access.Sound session.context := by
  induction operations generalizing session with
  | nil => exact ⟨rfl, h⟩
  | cons operation rest ih =>
      obtain ⟨hoperation, hrest⟩ := List.forall_mem_cons.mp hoperations
      have hcontext : (session.step operation).2.context = session.context :=
        context_step hoperation
      have hsound := sound_step hgit h operation
      rw [← hcontext] at hgit hsound ⊢
      exact ih hgit hsound hrest

/-- Without borrows the repository stays free. -/
theorem free_after (hfree : session.access.borrowed = false)
    (hoperations : .borrow ∉ operations) : (session.after operations).access.borrowed = false := by
  induction operations generalizing session with
  | nil => exact hfree
  | cons operation rest ih =>
      obtain ⟨hoperation, hrest⟩ := not_or.mp (List.mem_cons.not.mp hoperations)
      have hbegun := (disciplined_step session operation).begun_iff hfree
      refine ih (Bool.eq_false_iff.mpr fun hborrowed => hoperation ?_) hrest
      exact (hbegun.mp hborrowed).1.symm

end Session

/-- With git that always answers in the same way, it cannot be seen in a prompt that discoveries are
put off. A prompt that does not arrive at the repository is settled without git. Any other is the
same as with a repository that was found before, and the runs of git are the same, except that those
of the discovery come first, when the first leaf that reaches the repository is drawn. And a prompt
is the same after all that may be done with its context before it. -/
theorem render_of_unvarying {context : Context} (hgit : Unvarying context.git)
    (tokens : List Token) :
    (∀ repository asked, Repository.discover context.git context.currentDir context.gitTimeout [] =
        (.ok repository, asked) →
      (¬ context.Arrives (context.drawn tokens) ∧
        ∃ result, ∀ access, context.render tokens access = (result, access)) ∨
      ∃ before leaf after slots result more,
        context.drawn tokens = before ++ leaf :: after ∧
        (∀ other ∈ before, other.reaches = false) ∧ leaf.reaches = true ∧
        (∀ access, before.mapM context.slot access = (.ok slots, access)) ∧
        ∀ calls, context.render tokens { calls } =
            (result, { calls := calls ++ asked ++ more, discovery := .done repository }) ∧
          context.render tokens { calls, discovery := .done repository } =
            (result, { calls := calls ++ more, discovery := .done repository })) ∧
    ∀ (session : Session) (operations : List Operation), session.context = context →
      session.access.borrowed = false → session.access.Sound context →
      (∀ operation ∈ operations, ∀ change, operation ≠ .assign change) →
      ((session.after operations).access.borrowed = false →
        ((session.after operations).context.render tokens (session.after operations).access).1 =
          (context.render tokens session.access).1) ∧
      (.borrow ∉ operations → (session.after operations).access.borrowed = false) := by
  refine ⟨fun repository asked hdiscover => ?_, ?_⟩
  · by_cases harrives : context.Arrives (context.drawn tokens)
    · obtain ⟨before, leaf, after, slots, hdrawn, hbefore, hleaf, hslots⟩ := harrives.exists_first
      obtain ⟨result, more, hrender⟩ := Context.render_of_arrives hgit hdiscover harrives
      exact .inr ⟨before, leaf, after, slots, result, more, hdrawn, hbefore, hleaf, hslots, hrender⟩
    · exact .inl ⟨harrives, Context.render_of_not_arrives harrives⟩
  · rintro session operations rfl hfree hsound hoperations
    refine ⟨fun hlater => ?_, Session.free_after hfree⟩
    obtain ⟨hcontext, hknown⟩ := Session.sound_after hgit hsound hoperations
    rw [hcontext, Context.render_of_sound hgit hlater hknown,
      Context.render_of_sound hgit hfree hsound]

/-- Git in a repository whose branch is `main`. -/
def mainGit : Behaviour := fun _ call =>
  match call.command with
  | .locate => .finished 0 "/home/alice/.git\nfalse\n" ""
  | .topLevel => .finished 0 "/home/alice\n" ""
  | .branchName => .finished 0 "main\n" ""
  | _ => .timedOut

/-- The repository that it tells. -/
def mainRepository : Repository :=
  ⟨.ofString "/home/alice/.git", some (.ofString "/home/alice"), .ofInt 2⟩

/-- The runs of git for its discovery. -/
def mainCalls : List Call :=
  [locateCall (.ofString "/home/alice") (.ofInt 2),
    topLevelCall (.ofString "/home/alice") (.ofInt 2)]

/-- A session that looks for the repository and then for a style. -/
def mainSession : Session :=
  Session.after ⟨homeContext mainGit, {}⟩ [.repository, .style "red"]

theorem render_branch_mainGit :
    Unvarying mainGit ∧
    Repository.discover mainGit (.ofString "/home/alice") (.ofInt 2) [] =
      (.ok (some mainRepository), mainCalls) ∧
    (∃ result more, result.toOption = some "main" ∧
      (homeContext mainGit).render branchTokens {} =
        (result, ⟨mainCalls ++ more, .done (some mainRepository), false⟩) ∧
      (homeContext mainGit).render branchTokens ⟨[], .done (some mainRepository), false⟩ =
        (result, ⟨more, .done (some mainRepository), false⟩)) ∧
    mainSession.access.discovery = .done (some mainRepository) ∧
    mainSession.access.borrowed = false ∧
    (mainSession.context.render branchTokens mainSession.access).1 =
      ((homeContext mainGit).render branchTokens {}).1 := by
  have hgit : Unvarying (homeContext mainGit).git := fun _ _ => rfl
  have hdiscover : Repository.discover mainGit (.ofString "/home/alice") (.ofInt 2) [] =
    (.ok (some mainRepository), mainCalls) := by decide +kernel
  have hprompt : ((homeContext mainGit).render branchTokens {}).1.toOption = some "main" := by
    decide +kernel
  have hfree : mainSession.access.borrowed = false := by decide +kernel
  obtain ⟨hone, hsession⟩ := render_of_unvarying hgit branchTokens
  refine ⟨hgit, hdiscover, ?_, by decide +kernel, hfree, ?_⟩
  · rcases hone _ _ hdiscover with ⟨hidle, _⟩ | ⟨_, _, _, _, result, more, _, _, _, _, hrender⟩
    · exact (hidle (.here rfl)).elim
    · obtain ⟨hlazy, heager⟩ := hrender []
      rw [hlazy] at hprompt
      exact ⟨result, more, hprompt, hlazy, heager⟩
  · refine (hsession ⟨homeContext mainGit, {}⟩ [.repository, .style "red"] rfl rfl
      (fun repository hdone => by cases hdone) (fun operation hoperation change => ?_)).1 hfree
    simp only [List.mem_cons, List.not_mem_nil, or_false] at hoperation
    rcases hoperation with rfl | rfl <;> simp

end ShellPrompt
