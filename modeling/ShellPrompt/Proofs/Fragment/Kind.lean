import ShellPrompt.Proofs.Fragment.Squash

/-! # Changes that keep the kinds of fragments

Where segments end and which of them stay depends on the kinds of fragments only. So a change that
keeps the kinds may be made before squashing or after it, and what stays is at the same places. -/

namespace ShellPrompt

/-- A change of fragments that leaves starts, resets and values what they are. -/
structure Fragment.KeepsKind (change : Fragment → Fragment) : Prop where
  isStart : ∀ fragment, Slot.isStart (some (change fragment)) = Slot.isStart (some fragment)
  isReset : ∀ fragment, Slot.isReset (some (change fragment)) = Slot.isReset (some fragment)
  isValue : ∀ fragment, Slot.isValue (some (change fragment)) = Slot.isValue (some fragment)

namespace Fragment.KeepsKind

variable {change : Fragment → Fragment}

theorem isStart_map (h : KeepsKind change) (slot : Slot) :
    Slot.isStart (slot.map change) = slot.isStart := by
  cases slot with
  | none => rfl
  | some fragment => exact h.isStart fragment

theorem isReset_map (h : KeepsKind change) (slot : Slot) :
    Slot.isReset (slot.map change) = slot.isReset := by
  cases slot with
  | none => rfl
  | some fragment => exact h.isReset fragment

theorem isValue_map (h : KeepsKind change) (slot : Slot) :
    Slot.isValue (slot.map change) = slot.isValue := by
  cases slot with
  | none => rfl
  | some fragment => exact h.isValue fragment

end Fragment.KeepsKind

namespace Segment

variable {change : Fragment → Fragment}

/-! ## Segments -/

theorem groupFrom_map (h : Fragment.KeepsKind change) (current slots : List Slot) :
    groupFrom (current.map (Option.map change)) (slots.map (Option.map change)) =
      (groupFrom current slots).map (List.map (Option.map change)) := by
  induction slots generalizing current with
  | nil => cases current <;> rfl
  | cons slot slots ih =>
      have hsingle := ih [slot]
      have hlonger := ih (current ++ [slot])
      rw [List.map_cons, List.map_nil] at hsingle
      rw [List.map_append, List.map_cons, List.map_nil] at hlonger
      rw [List.map_cons, groupFrom, groupFrom, h.isStart_map, h.isReset_map, List.isEmpty_map,
        hsingle, hlonger]
      by_cases hstart : slot.isStart = true
      · rw [if_pos hstart, if_pos hstart]
        by_cases hempty : current.isEmpty = true
        · rw [if_pos hempty, if_pos hempty]
        · rw [if_neg hempty, if_neg hempty, List.map_cons]
      · rw [if_neg hstart, if_neg hstart]
        by_cases hreset : slot.isReset = true
        · have hclosed := ih []
          rw [List.map_nil] at hclosed
          rw [if_pos hreset, if_pos hreset, hclosed, List.map_cons, List.map_append, List.map_cons,
            List.map_nil]
        · rw [if_neg hreset, if_neg hreset]

theorem keep_map (h : Fragment.KeepsKind change) (segment : Segment) :
    keep (segment.map (Option.map change)) = keep segment := by
  have hvalue : Slot.isValue ∘ Option.map change = Slot.isValue := funext h.isValue_map
  have hpresent : Option.isSome ∘ Option.map change = Option.isSome :=
    funext fun _ => Option.isSome_map
  rw [keep, keep, List.any_map, List.all_map, hvalue, hpresent]

/-- A change that keeps the kinds has no part in what squashing keeps. -/
theorem squash_map (h : Fragment.KeepsKind change) (slots : List Slot) :
    squash (slots.map (Option.map change)) = (squash slots).map change := by
  have hgroup := groupFrom_map h [] slots
  rw [List.map_nil] at hgroup
  have hkeep : keep ∘ List.map (Option.map change) = keep := funext (keep_map h)
  rw [squash, squash, group, group, hgroup, List.filter_map, hkeep, List.flatMap_map,
    List.map_flatMap]
  refine List.flatMap_congr fun segment _ => ?_
  rw [List.filterMap_map, List.map_filterMap]
  rfl

/-! ## Places -/

theorem cutAfter_map_iff (h : Fragment.KeepsKind change) {slots : List Slot} {place : Nat} :
    CutAfter (slots.map (Option.map change)) place ↔ CutAfter slots place := by
  simp only [CutAfter, List.getElem?_map, Option.map_eq_some_iff]
  constructor
  · rintro ⟨_, _, ⟨slot, hslot, rfl⟩, ⟨next, hnext, rfl⟩, hcut⟩
    rw [h.isReset_map, h.isStart_map] at hcut
    exact ⟨slot, next, hslot, hnext, hcut⟩
  · rintro ⟨slot, next, hslot, hnext, hcut⟩
    rw [← h.isReset_map, ← h.isStart_map] at hcut
    exact ⟨_, _, ⟨slot, hslot, rfl⟩, ⟨next, hnext, rfl⟩, hcut⟩

theorem together_map_iff (h : Fragment.KeepsKind change) {slots : List Slot} {place other : Nat} :
    Together (slots.map (Option.map change)) place other ↔ Together slots place other := by
  simp only [Together, cutAfter_map_iff h]

theorem exists_value_map_iff (h : Fragment.KeepsKind change) {slots : List Slot} {place : Nat} :
    (∃ text : String, (slots.map (Option.map change))[place]? = some (some (.value text))) ↔
      ∃ text : String, slots[place]? = some (some (.value text)) := by
  rw [List.getElem?_map]
  cases slots[place]? with
  | none => simp
  | some slot =>
      simp only [Option.map_some, Option.some.injEq]
      rw [← isValue_iff, ← isValue_iff, h.isValue_map]

theorem getElem?_map_eq_missing_iff {slots : List Slot} {place : Nat} :
    (slots.map (Option.map change))[place]? = some none ↔ slots[place]? = some none := by
  rw [List.getElem?_map]
  cases slots[place]? with
  | none => simp
  | some slot => simp

theorem stays_map_iff (h : Fragment.KeepsKind change) {slots : List Slot} {place : Nat} :
    Stays (slots.map (Option.map change)) place ↔ Stays slots place := by
  simp only [Stays, exists_and_left, together_map_iff h, exists_value_map_iff h, ne_eq,
    getElem?_map_eq_missing_iff]

/-- What stays is at the same places after a change that keeps the kinds. -/
theorem StayAt.map (h : Fragment.KeepsKind change) {slots : List Slot} {fragments : List Fragment}
    {places : List Nat} (hstay : StayAt slots fragments places) :
    StayAt (slots.map (Option.map change)) (fragments.map change) places := by
  refine ⟨hstay.increasing, fun place => ?_, ?_⟩
  · rw [hstay.mem_iff, stays_map_iff h, List.getElem?_map]
    refine and_congr_left fun _ => ?_
    cases slots[place]? with
    | none => simp
    | some slot => cases slot <;> simp
  · have hmap := congrArg (List.map (Option.map (Option.map change))) hstay.map_eq
    rw [List.map_map, List.map_map] at hmap
    rw [List.map_map]
    refine Eq.trans (List.map_congr_left fun place _ => ?_) hmap
    rw [List.getElem?_map]
    rfl

end Segment

end ShellPrompt
