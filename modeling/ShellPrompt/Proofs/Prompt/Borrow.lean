import ShellPrompt.Proofs.Prompt.Leaves

/-! # Drawing and borrows

Started with a free repository, drawing leaves it free, however it ends, and is not stopped by a
borrow. Started during a borrow, drawing changes nothing, and it is stopped by the borrow as soon as
it reaches the repository. -/

namespace ShellPrompt

theorem RenderError.not_isBorrow_ofTrouble (trouble : Git.Trouble) :
    ¬ (RenderError.ofTrouble trouble).IsBorrow := by
  cases trouble <;> rintro ⟨⟩

/-! ## With a free repository -/

/-- From a free repository the action leaves it free and is not stopped by a borrow. -/
def Draw.KeepsFree {α : Type} (action : Draw α) : Prop :=
  ∀ access : Access, access.borrowed = false → (action access).2.borrowed = false ∧
    ∀ error, (action access).1 = .error error → ¬ error.IsBorrow

namespace Draw.KeepsFree

variable {α β : Type}

theorem ofExcept {result : Except RenderError α}
    (h : ∀ error, result = .error error → error.IsOwn) : KeepsFree (.ofExcept result) :=
  fun _ hfree => ⟨hfree, fun error herror => (h error herror).not_isBorrow⟩

theorem pure (value : α) : KeepsFree (Pure.pure value : Draw α) :=
  fun _ hfree => ⟨hfree, fun error h => by cases h⟩

theorem ofRun (run : Git.Run α) : KeepsFree (Draw.ofRun run) := by
  intro access hfree
  refine ⟨hfree, fun error h hborrow => ?_⟩
  rw [Draw.ofRun_run] at h
  cases hrun : (run access.calls).1 with
  | error trouble =>
      rw [hrun] at h
      obtain rfl := Except.error.inj h
      exact RenderError.not_isBorrow_ofTrouble trouble hborrow
  | ok value =>
      rw [hrun] at h
      cases h

theorem bind {action : Draw α} {next : α → Draw β} (h : KeepsFree action)
    (hnext : ∀ value, KeepsFree (next value)) : KeepsFree (action >>= next) := by
  intro access hfree
  have hfirst := h access hfree
  rw [Action.bind_run]
  rcases haction : action access with ⟨error | value, between⟩
  · rw [haction] at hfirst
    exact ⟨hfirst.1, fun other hother => hfirst.2 other (Except.error.inj hother ▸ rfl)⟩
  · rw [haction] at hfirst
    exact hnext value between hfirst.1

theorem closed : Action.Closed KeepsFree := ⟨pure, bind⟩

theorem mapM {step : β → Draw α} (h : ∀ item, KeepsFree (step item)) (items : List β) :
    KeepsFree (items.mapM step) := closed.mapM h items

end Draw.KeepsFree

section

variable {context : Context}

open Draw

theorem Context.keepsFree_discover : KeepsFree context.discover := by
  intro access hfree
  refine ⟨(borrowed_discover context access).trans hfree, fun error herror => ?_⟩
  cases h : access.discovery with
  | done repository =>
      rw [discover_of_done h] at herror
      cases herror
  | pending =>
      rw [discover_of_pending h] at herror
      split at herror
      · cases herror
      · rename_i trouble calls _
        obtain rfl := Except.error.inj herror
        exact RenderError.not_isBorrow_ofTrouble trouble

theorem Context.keepsFree_repository : KeepsFree context.repository := by
  intro access hfree
  rw [repository_of_free hfree]
  exact keepsFree_discover access hfree

theorem Context.isOwn_of_styleSequence {name : String} {error : RenderError}
    (h : context.styleSequence name = .error error) : error.IsOwn := by
  unfold styleSequence at h
  split at h
  · cases hcode : context.styles.sequence name with
    | error cause =>
        rw [hcode] at h
        obtain rfl := Except.error.inj h
        exact .style cause
    | ok code =>
        rw [hcode] at h
        cases h
  · cases h

theorem Component.isOwn_of_ownText {name : ComponentName} {options : Options}
    {error : RenderError} (h : ownText context name options = .error error) : error.IsOwn := by
  cases name with
  | cwd =>
      rw [ownText, directoryStyle] at h
      split at h
      · cases h
      · obtain rfl := Except.error.inj h
        exact .invalidOptions _ _
  | _ => cases h

theorem Component.isOwn_of_slotOf {name : ComponentName} {options : Options}
    {shown : Option String} {error : RenderError}
    (h : slotOf context name options shown = .error error) : error.IsOwn := by
  rw [slotOf] at h
  split at h
  · cases h
  · obtain rfl := Except.error.inj h
    exact .invalidOptions _ _

theorem Component.keepsFree_text (name : ComponentName) (options : Options) :
    KeepsFree (text context name options) := by
  cases hreaches : reaches name options with
  | false =>
      rw [text_of_not_reaches hreaches]
      exact .ofExcept fun error => isOwn_of_ownText
  | true =>
      intro access hfree
      rw [text_of_free hreaches hfree]
      exact Context.keepsFree_discover.bind (fun repository => .ofRun _) access hfree

theorem Component.keepsFree_handle (name : ComponentName) (options : Options) :
    KeepsFree (handle context name options) := by
  rw [handle_eq_map]
  exact KeepsFree.closed.map _ (keepsFree_text name options)

theorem Component.keepsFree_run (name : ComponentName) (options : Options) :
    KeepsFree (run context name options) := by
  rw [run_eq_bind]
  exact (keepsFree_text name options).bind fun shown =>
    .ofExcept fun error => isOwn_of_slotOf

theorem Context.isOwn_of_styleSlot {name : String} {error : RenderError}
    (h : context.styleSlot name = .error error) : error.IsOwn := by
  rw [styleSlot] at h
  cases hcode : context.styleSequence name with
  | error cause =>
      rw [hcode] at h
      exact isOwn_of_styleSequence (hcode.trans (congrArg _ (Except.error.inj h)))
  | ok code =>
      rw [hcode] at h
      cases h

theorem Context.isOwn_of_ownSlot {leaf : Leaf} {error : RenderError}
    (h : context.ownSlot leaf = .error error) : error.IsOwn := by
  cases leaf with
  | text text => cases h
  | style name => exact isOwn_of_styleSlot h
  | component name options =>
      rw [ownSlot] at h
      cases hshown : Component.ownText context name options with
      | error cause =>
          rw [hshown] at h
          exact Component.isOwn_of_ownText (hshown.trans (congrArg _ (Except.error.inj h)))
      | ok shown =>
          rw [hshown] at h
          exact Component.isOwn_of_slotOf h

theorem Context.keepsFree_slot (leaf : Leaf) : KeepsFree (context.slot leaf) := by
  cases leaf with
  | text text => exact .pure _
  | style name => exact .ofExcept fun error => isOwn_of_styleSlot
  | component name options => exact Component.keepsFree_run name options

/-- The repository is free again behind each leaf. -/
theorem Context.free_of_mapM_slot {leaves : List Leaf} {access last : Access} {slots : List Slot}
    (hfree : access.borrowed = false)
    (h : leaves.mapM context.slot access = (.ok slots, last)) : last.borrowed = false := by
  have hlast := (KeepsFree.mapM context.keepsFree_slot leaves access hfree).1
  rwa [h] at hlast

theorem Context.keepsFree_render (tokens : List Token) : KeepsFree (context.render tokens) := by
  rw [render_eq_map]
  exact KeepsFree.closed.map _ (.mapM keepsFree_slot _)

end

/-! ## During a borrow -/

/-- During a borrow the action changes nothing, and the borrow stops it exactly if it `arrives` at the
repository. -/
structure Draw.Respects {α : Type} (action : Draw α) (arrives : Prop) : Prop where
  unchanged : ∀ access : Access, access.borrowed = true → (action access).2 = access
  stopped_iff : ∀ access : Access, access.borrowed = true →
    ((∃ error, (action access).1 = .error error ∧ error.IsBorrow) ↔ arrives)

namespace Draw.Respects

variable {α β : Type} {action : Draw α} {arrives : Prop}

theorem ofExcept {result : Except RenderError α}
    (h : ∀ error, result = .error error → error.IsOwn) :
    Respects (.ofExcept result) False := by
  refine ⟨fun _ _ => rfl, fun _ _ => ⟨?_, False.elim⟩⟩
  rintro ⟨error, herror, hborrow⟩
  exact (h error herror).not_isBorrow hborrow

theorem of_stopped (h : ∀ access : Access, access.borrowed = true →
    ∃ error, error.IsBorrow ∧ action access = (.error error, access)) : Respects action True := by
  refine ⟨fun access hborrowed => ?_, fun access hborrowed => ⟨fun _ => trivial, fun _ => ?_⟩⟩
  · obtain ⟨error, _, haction⟩ := h access hborrowed
    rw [haction]
  · obtain ⟨error, herror, haction⟩ := h access hborrowed
    exact ⟨error, by rw [haction], herror⟩

/-- What is worked out afterwards has no part in it. -/
theorem bindExcept {next : α → Except RenderError β} (h : Respects action arrives)
    (hnext : ∀ value error, next value = .error error → error.IsOwn) :
    Respects (action >>= fun value => .ofExcept (next value)) arrives := by
  have hrun : ∀ access, (action >>= fun value => Action.ofExcept (next value)) access =
      ((action access).1 >>= next, (action access).2) := by
    intro access
    rw [Action.bind_run]
    rcases action access with ⟨_ | _, _⟩ <;> rfl
  refine ⟨fun access hborrowed => ?_, fun access hborrowed => ?_⟩
  · rw [hrun]
    exact h.unchanged access hborrowed
  · rw [hrun, ← h.stopped_iff access hborrowed]
    cases (action access).1 with
    | error error => simp only [Bind.bind, Except.bind, Except.error.injEq]
    | ok value =>
        constructor
        · rintro ⟨error, herror, hborrow⟩
          exact ((hnext value error herror).not_isBorrow hborrow).elim
        · rintro ⟨error, herror, _⟩
          cases herror

theorem map (f : α → β) (h : Respects action arrives) : Respects (f <$> action) arrives := by
  rw [← bind_pure_comp]
  exact h.bindExcept fun value error herror => by cases herror

end Draw.Respects

section

variable {context : Context}

open Draw

theorem Context.respects_repository : Respects context.repository True :=
  .of_stopped fun _ hborrowed => ⟨_, .shared, repository_of_borrowed hborrowed⟩

theorem Context.respects_borrow : Respects context.borrow True :=
  .of_stopped fun _ hborrowed => ⟨_, .exclusive, borrow_of_borrowed hborrowed⟩

theorem Component.respects_text (name : ComponentName) (options : Options) :
    Respects (text context name options) (reaches name options = true) := by
  cases hreaches : reaches name options with
  | false =>
      rw [text_of_not_reaches hreaches, Bool.false_eq_true]
      exact .ofExcept fun error => isOwn_of_ownText
  | true =>
      rw [eq_self]
      exact .of_stopped fun _ hborrowed => text_of_borrowed context hreaches hborrowed

theorem Component.respects_handle (name : ComponentName) (options : Options) :
    Respects (handle context name options) (reaches name options = true) := by
  rw [handle_eq_map]
  exact (respects_text name options).map _

theorem Component.respects_run (name : ComponentName) (options : Options) :
    Respects (run context name options) (reaches name options = true) := by
  rw [run_eq_bind]
  exact (respects_text name options).bindExcept fun shown error => isOwn_of_slotOf

end

/-- The leaves are drawn up to one that reaches the repository. -/
inductive Context.Arrives (context : Context) : List Leaf → Prop where
  | here {leaf : Leaf} {rest : List Leaf} (h : leaf.reaches = true) : Arrives context (leaf :: rest)
  | later {leaf : Leaf} {rest : List Leaf} {slot : Slot} (h : leaf.reaches = false)
    (hslot : context.ownSlot leaf = .ok slot) (hrest : Arrives context rest) :
    Arrives context (leaf :: rest)

section

variable {context : Context}

open Draw

theorem Context.not_arrives_nil : ¬ context.Arrives [] := by
  rintro ⟨⟩

theorem Context.arrives_cons_iff {leaf : Leaf} {rest : List Leaf} :
    context.Arrives (leaf :: rest) ↔ leaf.reaches = true ∨
      (leaf.reaches = false ∧ (∃ slot, context.ownSlot leaf = .ok slot) ∧ context.Arrives rest) := by
  constructor
  · rintro (h | ⟨h, hslot, hrest⟩)
    · exact .inl h
    · exact .inr ⟨h, ⟨_, hslot⟩, hrest⟩
  · rintro (h | ⟨h, ⟨slot, hslot⟩, hrest⟩)
    · exact .here h
    · exact .later h hslot hrest

theorem Context.exists_reaches_of_arrives {leaves : List Leaf} (h : context.Arrives leaves) :
    ∃ leaf ∈ leaves, leaf.reaches = true := by
  induction h with
  | here h => exact ⟨_, List.mem_cons_self, h⟩
  | later _ _ _ ih =>
      obtain ⟨leaf, hleaf, hreaches⟩ := ih
      exact ⟨leaf, List.mem_cons_of_mem _ hleaf, hreaches⟩

/-- What is known of a row of leaves, and of whether it arrives at the repository: leaves that do not
reach the repository are settled beforehand, and the first one that does decides. -/
theorem Context.mapM_slot_induction {motive : Draw (List Slot) → Prop → Prop}
    (hends : ∀ result : Except RenderError (List Slot),
      (∀ error, result = .error error → error.IsOwn) → motive (.ofExcept result) False)
    (hreaches : ∀ leaf next, leaf.reaches = true → motive (context.slot leaf >>= next) True)
    (hmap : ∀ action arrives (slot : Slot), motive action arrives →
      motive ((slot :: ·) <$> action) arrives)
    (leaves : List Leaf) : motive (leaves.mapM context.slot) (context.Arrives leaves) := by
  induction leaves with
  | nil =>
      rw [iff_false_intro not_arrives_nil]
      exact hends (.ok []) fun error herror => by cases herror
  | cons leaf rest ih =>
      rw [List.mapM_cons, arrives_cons_iff]
      cases hleaf : leaf.reaches with
      | true =>
          simp only [true_or]
          exact hreaches leaf _ hleaf
      | false =>
          rw [slot_of_not_reaches hleaf]
          cases hslot : context.ownSlot leaf with
          | error error =>
              simp only [Bool.false_eq_true, reduceCtorEq, exists_false, false_and, and_false,
                or_false]
              exact hends (.error error) fun other hother =>
                isOwn_of_ownSlot (hslot.trans (congrArg _ (Except.error.inj hother)))
          | ok slot =>
              simp only [Bool.false_eq_true, Except.ok.injEq, exists_eq', true_and, false_or]
              exact hmap _ _ slot ih

theorem Context.respects_mapM_slot (leaves : List Leaf) :
    Respects (leaves.mapM context.slot) (context.Arrives leaves) := by
  refine mapM_slot_induction (fun result => .ofExcept) (fun leaf next hreaches => ?_)
    (fun action arrives slot h => h.map (slot :: ·)) leaves
  refine .of_stopped fun access hborrowed => ?_
  obtain ⟨error, herror, hslot⟩ := slot_of_borrowed context hreaches hborrowed
  exact ⟨error, herror, by rw [Action.bind_run, hslot]⟩

theorem Context.respects_render (tokens : List Token) :
    Respects (context.render tokens) (context.Arrives (context.drawn tokens)) := by
  rw [render_eq_map]
  exact (respects_mapM_slot _).map _

end

end ShellPrompt
