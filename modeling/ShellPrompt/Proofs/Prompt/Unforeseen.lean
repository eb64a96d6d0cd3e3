import ShellPrompt.Proofs.Git.Unforeseen
import ShellPrompt.Proofs.Prompt.Borrow

/-! # Prompts and unforeseen trouble

A prompt is exposed to the trouble of all runs of git that are made for it: it is drawn no further
than to the first one that breaks off or is interrupted. -/

namespace ShellPrompt

open Git

theorem RenderError.ofTrouble_inj {first second : Trouble} :
    ofTrouble first = ofTrouble second ↔ first = second := by
  cases first <;> cases second <;> simp [ofTrouble]

/-- What is drawn is exposed to the trouble of the runs of git that are made for it. -/
abbrev Draw.IsExposed {α : Type} (git : Behaviour) (action : Draw α) : Prop :=
  Exposed git Access.calls RenderError.ofTrouble action

namespace Draw

variable {α : Type} {git : Behaviour}

theorem isExposed_ofRun {run : Run α} (h : run.IsExposed git) : (ofRun run).IsExposed git := by
  refine ⟨fun access => h.logged access.calls, fun access trouble htrouble => ?_⟩
  have hresult : (ofRun run access).1 = .error (.ofTrouble trouble) ↔
      (run access.calls).1 = .error trouble := by
    rw [ofRun_run]
    cases (run access.calls).1 <;> simp [Except.mapError, RenderError.ofTrouble_inj]
  exact hresult.trans (h.fails_iff access.calls trouble htrouble)

/-- The errors that a prompt brings about on its own are none of git. -/
theorem isExposed_ofExcept {result : Except RenderError α}
    (h : ∀ error, result = .error error → error.IsOwn) : IsExposed git (.ofExcept result) :=
  .of_idle (fun _ => rfl) fun _ trouble _ herror => (h _ herror).ne_ofTrouble trouble rfl

end Draw

namespace Context

variable {context : Context}

theorem isExposed_discover : context.discover.IsExposed context.git := by
  refine .bind (.of_idle (fun _ => rfl) fun _ _ _ h => by cases h) fun access => ?_
  split
  · exact .pure _
  · refine .bind (Draw.isExposed_ofRun (Git.isExposed_discover _ _)) fun repository => ?_
    exact .bind (.of_idle (fun _ => rfl) fun _ _ _ h => by cases h) fun _ => .pure _

theorem isExposed_slot (leaf : Leaf) : (context.slot leaf).IsExposed context.git := by
  cases hreaches : leaf.reaches with
  | false =>
      rw [slot_of_not_reaches hreaches]
      exact Draw.isExposed_ofExcept fun error => isOwn_of_ownSlot
  | true =>
      refine .of_forall fun access => ?_
      cases hborrowed : access.borrowed with
      | true =>
          obtain ⟨error, herror, hslot⟩ := slot_of_borrowed context hreaches hborrowed
          refine ⟨.fail error, .of_idle (fun _ => rfl) fun _ trouble _ h => ?_, hslot⟩
          obtain rfl := Except.error.inj h
          exact RenderError.not_isBorrow_ofTrouble trouble herror
      | false =>
          obtain ⟨name, options, rfl⟩ := leaf.exists_component hreaches
          refine ⟨_, ?_, slot_of_free hreaches hborrowed⟩
          refine isExposed_discover.bind fun repository => ?_
          have hfound := Component.closed_found (isExposed_closed context.git) (fun _ _ => trivial)
            name repository
          exact (Draw.isExposed_ofRun hfound).bind fun shown =>
            Draw.isExposed_ofExcept fun error => Component.isOwn_of_slotOf

/-- A template is drawn exposed to all runs of git that are made for it. -/
theorem isExposed_evaluate (tokens : List Token) :
    (context.evaluate tokens).IsExposed context.git := by
  rw [evaluate_eq_mapM]
  exact Exposed.closed.mapM isExposed_slot _

end Context

end ShellPrompt
