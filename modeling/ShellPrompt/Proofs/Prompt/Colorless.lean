import ShellPrompt.Proofs.Prompt.Leaves
import ShellPrompt.Proofs.Style.Table

/-! # Prompts without colors

Without colors the markers of styles are still there, with nothing in them. So git is run as with
colors, the same errors come up, the same segments stay, and what is shown is the rest of the prompt
with colors. -/

namespace ShellPrompt

/-- A fragment with nothing in it if it is an escape sequence. -/
def Fragment.uncolored : Fragment → Fragment
  | .start _ => .start ""
  | .reset _ => .reset ""
  | other => other

/-- Whether a fragment shows something of its own: text of the template or what a component
shows. -/
def Fragment.isShown : Fragment → Bool
  | .text _ | .value _ => true
  | .start _ | .reset _ => false

/-- The same for the place of a fragment. -/
def Slot.uncolored (slot : Slot) : Slot := slot.map Fragment.uncolored

theorem Fragment.keepsKind_uncolored : KeepsKind Fragment.uncolored :=
  ⟨fun fragment => by cases fragment <;> rfl, fun fragment => by cases fragment <;> rfl,
    fun fragment => by cases fragment <;> rfl⟩

/-- What is left of a text without its escape sequences. -/
theorem Fragment.render_uncolored (fragments : List Fragment) :
    render (fragments.map uncolored) = render (fragments.filter isShown) := by
  induction fragments with
  | nil => rfl
  | cons fragment rest ih =>
      have hcons : ∀ (first : Fragment) (others : List Fragment),
          render (first :: others) = first.content ++ render others := fun _ _ => rfl
      rw [List.map_cons, hcons, ih]
      cases fragment with
      | text text => rfl
      | value text => rfl
      | start code => exact String.empty_append
      | reset code => exact String.empty_append

/-- A component shows no escape sequences of its own. -/
theorem Component.slotOf_uncolored (context : Context) (name : ComponentName) (options : Options)
    (shown : Option String) :
    (slotOf context name options shown).map Slot.uncolored = slotOf context name options shown := by
  rw [slotOf]
  split
  · cases shown <;> rfl
  · rfl

namespace Context

/-- The context without colors. -/
def colorless (context : Context) : Context := { context with color := false }

mutual

theorem drawnToken_colorless (context : Context) : ∀ token,
    context.colorless.drawnToken token = context.drawnToken token
  | .static _ | .style _ | .component _ _ => rfl
  | .conditional condition left right => by
      have hleft := drawn_colorless context left
      have hright := drawnElse_colorless context right
      have hholds : context.colorless.holds condition = context.holds condition := by
        cases condition <;> rfl
      rw [drawnToken, drawnToken, hholds, hleft, hright]

/-- Colors have no part in which branches are drawn. -/
theorem drawn_colorless (context : Context) : ∀ tokens,
    context.colorless.drawn tokens = context.drawn tokens
  | [] => rfl
  | token :: rest => by
      have hfirst := drawnToken_colorless context token
      have hrest := drawn_colorless context rest
      rw [drawn, drawn, hfirst, hrest]

theorem drawnElse_colorless (context : Context) : ∀ tokens,
    context.colorless.drawnElse tokens = context.drawnElse tokens
  | none => rfl
  | some tokens => drawn_colorless context tokens

end

/-! ## Leaves that are evaluated -/

/-- The leaf is evaluated when leaves are drawn in order: all leaves in front of it give slots. -/
def Evaluates (context : Context) (leaves : List Leaf) (access : Access) (leaf : Leaf) : Prop :=
  ∃ before after slots middle, leaves = before ++ leaf :: after ∧
    before.mapM context.slot access = (.ok slots, middle)

variable {context : Context} {leaf other : Leaf} {leaves : List Leaf} {access next : Access}

theorem evaluates_cons_self : context.Evaluates (leaf :: leaves) access leaf :=
  ⟨[], leaves, [], access, rfl, rfl⟩

theorem Evaluates.mem (h : context.Evaluates leaves access leaf) : leaf ∈ leaves := by
  obtain ⟨before, after, _, _, rfl, _⟩ := h
  exact List.mem_append_right _ (List.mem_cons_self ..)

theorem Evaluates.cons {slot : Slot} (h : context.Evaluates leaves next leaf)
    (hother : context.slot other access = (.ok slot, next)) :
    context.Evaluates (other :: leaves) access leaf := by
  obtain ⟨before, after, slots, middle, rfl, hbefore⟩ := h
  exact ⟨other :: before, after, slot :: slots, middle, rfl,
    Action.mapM_cons_eq_ok_iff.mpr ⟨slot, next, slots, hother, hbefore, rfl⟩⟩

/-! ## Drawing without colors -/

theorem styleSlot_colorless {name code : String} (h : context.styleSequence name = .ok code) :
    context.colorless.styleSlot name = (context.styleSlot name).map Slot.uncolored := by
  have hempty : context.colorless.styleSequence name = .ok "" := rfl
  rw [styleSlot, styleSlot, h, hempty]
  by_cases hreset : name = StyleTable.resetName
  · simp only [Except.map, if_pos hreset]
    rfl
  · simp only [Except.map, if_neg hreset]
    rfl

/-- Without colors a leaf does the same, and its slot has no escape sequence. -/
theorem slot_colorless
    (h : ∀ name, leaf = .style name → ∃ code, context.styleSequence name = .ok code) :
    context.colorless.slot leaf = Slot.uncolored <$> context.slot leaf := by
  cases leaf with
  | text text => rfl
  | style name =>
      obtain ⟨code, hcode⟩ := h name rfl
      rw [slot, slot, styleSlot_colorless hcode, map_ofExcept]
  | component name options =>
      have hrun : Component.run context.colorless name options =
        Component.run context name options := rfl
      rw [slot, slot, hrun, Component.run_eq_bind, map_bind]
      refine congrArg _ (funext fun shown => ?_)
      rw [map_ofExcept, Component.slotOf_uncolored]

/-- Without colors leaves do the same one after another, as long as each style among them that is
evaluated has an escape sequence. -/
theorem mapM_slot_colorless (h : ∀ name, context.Evaluates leaves access (.style name) →
      ∃ code, context.styleSequence name = .ok code) :
    leaves.mapM context.colorless.slot access =
      (List.map Slot.uncolored <$> leaves.mapM context.slot) access := by
  induction leaves generalizing access with
  | nil => rfl
  | cons leaf leaves ih =>
      have hleaf : context.colorless.slot leaf = Slot.uncolored <$> context.slot leaf := by
        refine slot_colorless fun name hname => h name ?_
        rw [hname]
        exact evaluates_cons_self
      rw [List.mapM_cons, List.mapM_cons, hleaf, Action.bind_run, Action.map_run, map_bind,
        Action.bind_run]
      rcases hslot : context.slot leaf access with ⟨error | slot, next⟩
      · rfl
      · have hrest := ih fun name hname => h name (hname.cons hslot)
        dsimp only [Except.map]
        rw [bind_pure_comp, Action.map_run, hrest, map_bind, Action.bind_run, Action.map_run]
        rcases leaves.mapM context.slot next with ⟨_ | _, _⟩ <;> rfl

/-- Turning colors off does nothing but erase escape sequences. -/
theorem render_colorless (context : Context) {custom : Dictionary String String}
    (htable : StyleTable.ofSpecs custom = .ok context.styles) (tokens : List Token)
    (access : Access)
    (hknown : ∀ name, context.Evaluates (context.drawn tokens) access (.style name) →
      context.styles.contains name = true) :
    (∀ error last, context.evaluate tokens access = (.error error, last) →
      context.colorless.evaluate tokens access = (.error error, last) ∧
      context.render tokens access = (.error error, last) ∧
      context.colorless.render tokens access = (.error error, last)) ∧
    ∀ slots last, context.evaluate tokens access = (.ok slots, last) →
      context.colorless.evaluate tokens access = (.ok (slots.map Slot.uncolored), last) ∧
      (∃ places, Segment.StayAt slots (Segment.squash slots) places ∧
        Segment.StayAt (slots.map Slot.uncolored) (Segment.squash (slots.map Slot.uncolored))
          places) ∧
      context.render tokens access = (.ok (Fragment.render (Segment.squash slots)), last) ∧
      context.colorless.render tokens access =
        (.ok (Fragment.render ((Segment.squash slots).filter Fragment.isShown)), last) := by
  have hsequence : ∀ name, context.Evaluates (context.drawn tokens) access (.style name) →
      ∃ code, context.styleSequence name = .ok code := fun name hname =>
    exists_styleSequence (StyleTable.exists_sequence htable (hknown name hname))
  have hevaluate : context.colorless.evaluate tokens access =
      (List.map Slot.uncolored <$> context.evaluate tokens) access := by
    rw [evaluate_eq_mapM, evaluate_eq_mapM, drawn_colorless]
    exact mapM_slot_colorless hsequence
  have hrender : ∀ (context : Context), context.render tokens =
    (fun slots => Fragment.render (Segment.squash slots)) <$> context.evaluate tokens :=
      fun _ => rfl
  refine ⟨fun error last h => ?_, fun slots last h => ?_⟩
  · rw [hrender, hrender, Action.map_run, Action.map_run, hevaluate, Action.map_run, h]
    exact ⟨rfl, rfl, rfl⟩
  · have hcolorless : context.colorless.evaluate tokens access =
        (.ok (slots.map Slot.uncolored), last) := by
      rw [hevaluate, Action.map_run, h]
      rfl
    obtain ⟨places, hplaces⟩ := Segment.exists_stayAt_squash slots
    have hsquash : Segment.squash (slots.map Slot.uncolored) =
        (Segment.squash slots).map Fragment.uncolored :=
      Segment.squash_map Fragment.keepsKind_uncolored slots
    refine ⟨hcolorless, ⟨places, hplaces, ?_⟩, ?_, ?_⟩
    · rw [hsquash]
      exact hplaces.map Fragment.keepsKind_uncolored
    · rw [hrender, Action.map_run, h]
      rfl
    · rw [hrender, Action.map_run, hcolorless, ← Fragment.render_uncolored, ← hsquash]
      rfl

/-- Two jobs, and git that does not answer. -/
def twoJobs : Context where
  currentDir := .ofString "/"
  jobs := some "2"
  gitTimeout := .infinite false
  git := fun _ _ => .timedOut
  hostName := ""
  login := none

/-- A red number of jobs. -/
def redJobs : List Token := [.style "red", .component .jobs .empty, .style "reset"]

theorem contains_of_evaluates_redJobs {name : String}
    (h : twoJobs.Evaluates (twoJobs.drawn redJobs) {} (.style name)) :
    twoJobs.styles.contains name = true := by
  have hmem : Leaf.style name ∈
      [Leaf.style "red", .component .jobs .empty, .style "reset"] := h.mem
  simp only [List.mem_cons, Leaf.style.injEq, reduceCtorEq, List.not_mem_nil, or_false,
    false_or] at hmem
  rcases hmem with rfl | rfl <;> decide

theorem render_colorless_redJobs :
    StyleTable.ofSpecs .empty = .ok twoJobs.styles ∧
    (∀ name, twoJobs.Evaluates (twoJobs.drawn redJobs) {} (.style name) →
      twoJobs.styles.contains name = true) ∧
    twoJobs.render redJobs {} = (.ok "\\[\x1b[31m\\]2\\[\x1b[0m\\]", {}) ∧
    twoJobs.colorless.render redJobs {} = (.ok "2", {}) := by
  have htable : StyleTable.ofSpecs .empty = .ok twoJobs.styles := rfl
  have hknown : ∀ name, twoJobs.Evaluates (twoJobs.drawn redJobs) {} (.style name) →
      twoJobs.styles.contains name = true := fun name => contains_of_evaluates_redJobs
  have hslots : twoJobs.evaluate redJobs {} = (.ok [some (.start "\\[\x1b[31m\\]"),
      some (.value "2"), some (.reset "\\[\x1b[0m\\]")], {}) := by
    rfl
  obtain ⟨_, _, hcolored, hcolorless⟩ :=
    (render_colorless twoJobs htable redJobs {} hknown).2 _ _ hslots
  exact ⟨htable, hknown, hcolored, hcolorless⟩

end Context

end ShellPrompt
