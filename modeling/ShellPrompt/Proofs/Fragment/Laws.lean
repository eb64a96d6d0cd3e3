import Mathlib.Data.List.Flatten
import Mathlib.Data.List.Forall2
import ShellPrompt.Proofs.Fragment.Segmentation

/-! # Laws of squashing

Parts of a prompt that a boundary divides are squashed on their own. The more components show
something, the more of a prompt is left. What is left has no gaps, and squashing it once more
changes nothing. -/

namespace ShellPrompt.Segment

/-! ## Gaps that are filled -/

/-- A slot stays as it is, or it is a gap that a component fills. -/
def Fills (slot filled : Slot) : Prop := filled = slot ∨ slot = none ∧ filled.isValue = true

section

variable {slot filled : Slot} {segment filledSegment : Segment}

theorem Fills.isStart_eq (h : Fills slot filled) : filled.isStart = slot.isStart := by
  rcases h with rfl | ⟨rfl, hvalue⟩
  · rfl
  · cases filled with
    | none => rfl
    | some fragment => cases fragment <;> simp_all [Slot.isValue, Slot.isStart]

theorem Fills.isReset_eq (h : Fills slot filled) : filled.isReset = slot.isReset := by
  rcases h with rfl | ⟨rfl, hvalue⟩
  · rfl
  · cases filled with
    | none => rfl
    | some fragment => cases fragment <;> simp_all [Slot.isValue, Slot.isReset]

/-- Gaps are no boundaries, and neither is what fills them. -/
theorem forall₂_groupFrom {slots filledSlots : List Slot}
    (hcurrent : List.Forall₂ Fills segment filledSegment)
    (h : List.Forall₂ Fills slots filledSlots) :
    List.Forall₂ (List.Forall₂ Fills) (groupFrom segment slots)
      (groupFrom filledSegment filledSlots) := by
  induction h generalizing segment filledSegment with
  | nil => cases hcurrent <;> simp_all [groupFrom]
  | @cons slot filled slots filledSlots hfills _ ih =>
      have hempty : filledSegment.isEmpty = segment.isEmpty := by cases hcurrent <;> rfl
      have hlonger : List.Forall₂ Fills (segment ++ [slot]) (filledSegment ++ [filled]) :=
        List.rel_append hcurrent (.cons hfills .nil)
      rw [groupFrom, groupFrom, hfills.isStart_eq, hfills.isReset_eq, hempty]
      by_cases hstart : slot.isStart = true
      · rw [if_pos hstart, if_pos hstart]
        have hbegun := ih (.cons hfills .nil)
        by_cases hnone : segment.isEmpty = true
        · rw [if_pos hnone, if_pos hnone]
          exact hbegun
        · rw [if_neg hnone, if_neg hnone]
          exact .cons hcurrent hbegun
      · rw [if_neg hstart, if_neg hstart]
        by_cases hreset : slot.isReset = true
        · rw [if_pos hreset, if_pos hreset]
          exact .cons hlonger (ih .nil)
        · rw [if_neg hreset, if_neg hreset]
          exact ih hlonger

theorem any_isValue_of_fills (h : List.Forall₂ Fills segment filledSegment)
    (hvalue : segment.any Slot.isValue = true) : filledSegment.any Slot.isValue = true := by
  induction h with
  | nil => exact hvalue
  | cons hfills _ ih =>
      rw [List.any_cons, Bool.or_eq_true] at hvalue ⊢
      rcases hfills with rfl | ⟨rfl, hfilled⟩
      · exact hvalue.imp_right ih
      · exact .inl hfilled

/-- Where nothing is missing there is nothing to fill. -/
theorem eq_of_fills (h : List.Forall₂ Fills segment filledSegment)
    (hpresent : segment.all Option.isSome = true) : filledSegment = segment := by
  induction h with
  | nil => rfl
  | cons hfills _ ih =>
      rw [List.all_cons, Bool.and_eq_true] at hpresent
      rcases hfills with rfl | ⟨rfl, _⟩
      · rw [ih hpresent.2]
      · simp at hpresent

theorem keep_of_fills (h : List.Forall₂ Fills segment filledSegment)
    (hkeep : keep segment = true) : keep filledSegment = true := by
  rw [keep, Bool.or_eq_true] at hkeep
  rcases hkeep with hvalue | hpresent
  · rw [keep, any_isValue_of_fills h hvalue, Bool.true_or]
  · rw [eq_of_fills h hpresent, keep, hpresent, Bool.or_true]

theorem filterMap_sublist_of_fills (h : List.Forall₂ Fills segment filledSegment) :
    (segment.filterMap id).Sublist (filledSegment.filterMap id) := by
  induction h with
  | nil => simp
  | @cons slot filled _ _ hfills _ ih =>
      rcases hfills with rfl | ⟨rfl, _⟩
      · cases filled with
        | none => exact ih
        | some fragment => exact ih.cons_cons fragment
      · cases filled with
        | none => exact ih
        | some fragment => exact ih.cons fragment

end

/-- A segment that stays is still there when gaps are filled, and other segments may come to stay
beside it. -/
theorem flatMap_sublist_of_fills {segments filledSegments : List Segment}
    (h : List.Forall₂ (List.Forall₂ Fills) segments filledSegments) :
    ((segments.filter keep).flatMap fun segment => segment.filterMap id).Sublist
      ((filledSegments.filter keep).flatMap fun segment => segment.filterMap id) := by
  induction h with
  | nil => simp
  | @cons segment filledSegment _ _ hfills _ ih =>
      by_cases hkeep : keep segment = true
      · rw [List.filter_cons_of_pos hkeep, List.filter_cons_of_pos (keep_of_fills hfills hkeep),
          List.flatMap_cons, List.flatMap_cons]
        exact (filterMap_sublist_of_fills hfills).append ih
      · rw [List.filter_cons_of_neg hkeep]
        apply ih.trans
        by_cases hfilled : keep filledSegment = true
        · rw [List.filter_cons_of_pos hfilled, List.flatMap_cons]
          exact List.sublist_append_right _ _
        · rw [List.filter_cons_of_neg hfilled]

theorem squash_sublist_of_fills {slots filledSlots : List Slot}
    (h : List.Forall₂ Fills slots filledSlots) :
    (squash slots).Sublist (squash filledSlots) :=
  flatMap_sublist_of_fills (forall₂_groupFrom .nil h)

/-! ## Parts -/

theorem squash_append {first second : List Slot}
    (h : ∀ last ∈ first.getLast?, ∀ next ∈ second.head?, joined last next = false) :
    squash (first ++ second) = squash first ++ squash second := by
  simp only [squash, group_append h, List.filter_append, List.flatMap_append]

/-! ## Prompts without gaps -/

/-- Where nothing is missing all segments stay. -/
theorem squash_of_present {slots : List Slot} (h : none ∉ slots) :
    squash slots = slots.filterMap id := by
  have hkeep : (group slots).filter keep = group slots := by
    apply List.filter_eq_self.mpr
    intro segment hsegment
    have hpresent : segment.all Option.isSome = true := by
      apply List.all_eq_true.mpr
      intro slot hslot
      have hmem : slot ∈ (group slots).flatten := List.mem_flatten.mpr ⟨segment, hsegment, hslot⟩
      rw [flatten_group] at hmem
      apply Option.isSome_iff_ne_none.mpr
      rintro rfl
      exact h hmem
    rw [keep, hpresent, Bool.or_true]
  calc
    squash slots = (group slots).flatMap fun segment => segment.filterMap id := by
      rw [squash, hkeep]
    _ = (group slots).flatten.filterMap id := by rw [List.filterMap_flatten, List.flatMap_def]
    _ = slots.filterMap id := by rw [flatten_group]

theorem map_some_filterMap {slots : List Slot} (h : none ∉ slots) :
    (slots.filterMap id).map some = slots := by
  induction slots with
  | nil => rfl
  | cons slot slots ih =>
      rw [List.mem_cons, not_or] at h
      cases slot with
      | none => exact absurd rfl h.1
      | some fragment => simpa using ih h.2

theorem squash_map_some (fragments : List Fragment) : squash (fragments.map some) = fragments := by
  rw [squash_of_present (by simp)]
  simp

/-- The laws of squashing. Two parts are squashed on their own if the first is empty or ends with a
reset, or if the second is empty or begins with the start of a style. Filling gaps takes nothing
away. What has no gaps stays as it is, and so does what has been squashed. -/
theorem squash_laws (first second : List Slot) :
    ((∀ last ∈ first.getLast?, last.isReset = true) ∨
        (∀ next ∈ second.head?, next.isStart = true) →
      squash (first ++ second) = squash first ++ squash second) ∧
    (List.Forall₂ Fills first second → (squash first).Sublist (squash second)) ∧
    (none ∉ first → (squash first).map some = first) ∧
    squash ((squash first).map some) = squash first := by
  refine ⟨fun hparts => squash_append fun last hlast next hnext => ?_, squash_sublist_of_fills,
    fun hpresent => ?_, squash_map_some _⟩
  · exact joined_eq_false_iff.mpr
      (hparts.imp (fun hreset => hreset last hlast) fun hstart => hstart next hnext)
  · rw [squash_of_present hpresent, map_some_filterMap hpresent]

/-- The place of a branch with a style around it. -/
def branchSlots (branch : Slot) : List Slot :=
  [some (.start "\x1b[32m"), branch, some (.reset "\x1b[0m")]

theorem squash_laws_branchSlots :
    squash (branchSlots none ++ branchSlots (some (.value "main"))) =
      squash (branchSlots none) ++ squash (branchSlots (some (.value "main"))) ∧
    List.Forall₂ Fills (branchSlots none) (branchSlots (some (.value "main"))) ∧
    (squash (branchSlots none)).Sublist (squash (branchSlots (some (.value "main")))) ∧
    none ∉ branchSlots (some (.value "main")) ∧
    (squash (branchSlots (some (.value "main")))).map some =
      branchSlots (some (.value "main")) := by
  have hfills : List.Forall₂ Fills (branchSlots none) (branchSlots (some (.value "main"))) :=
    .cons (.inl rfl) (.cons (.inr ⟨rfl, rfl⟩) (.cons (.inl rfl) .nil))
  have hpresent : none ∉ branchSlots (some (.value "main")) := by decide
  obtain ⟨hparts, hgaps, _⟩ :=
    squash_laws (branchSlots none) (branchSlots (some (.value "main")))
  obtain ⟨_, _, hsettled, _⟩ := squash_laws (branchSlots (some (.value "main"))) []
  exact ⟨hparts (.inl (by decide)), hfills, hgaps hfills, hpresent, hsettled hpresent⟩

end ShellPrompt.Segment
