import Mathlib.Data.List.SplitBy
import ShellPrompt.Fragment.Segment

/-! # Where segments end

Slots are divided exactly behind resets and in front of starts. So the segment of a slot is known
from the slots around it, and squashing can be described without dividing anything. -/

namespace ShellPrompt.Segment

/-- Whether two neighbors belong to the same segment. -/
def joined (first second : Slot) : Bool := !(first.isReset || second.isStart)

theorem joined_eq_false_iff {first second : Slot} :
    joined first second = false ↔ first.isReset = true ∨ second.isStart = true := by
  rw [joined, Bool.not_eq_false', Bool.or_eq_true]

/-! ## Dividing by neighbors -/

/-- A segment that has been begun is divided no further, and a reset has not closed it. -/
structure Open (current : Segment) : Prop where
  joined : current.IsChain fun first second => joined first second = true
  unclosed : ∀ slot ∈ current.getLast?, slot.isReset = false

theorem Open.nil : Open [] := ⟨.nil, by simp⟩

theorem Open.singleton {slot : Slot} (h : slot.isReset = false) : Open [slot] :=
  ⟨.singleton slot, by simpa using h⟩

theorem Open.joined_concat {current : Segment} (h : Open current) {slot : Slot}
    (hslot : slot.isStart = false) :
    (current ++ [slot]).IsChain fun first second => Segment.joined first second = true := by
  apply h.joined.append (.singleton slot)
  intro first hfirst second hsecond
  obtain rfl := Option.some.inj hsecond
  simp [Segment.joined, h.unclosed first hfirst, hslot]

theorem Open.concat {current : Segment} (h : Open current) {slot : Slot}
    (hstart : slot.isStart = false) (hreset : slot.isReset = false) : Open (current ++ [slot]) :=
  ⟨h.joined_concat hstart, by simpa using hreset⟩

theorem not_isReset_of_isStart {slot : Slot} (h : slot.isStart = true) : slot.isReset = false := by
  cases slot with
  | none => rfl
  | some fragment => cases fragment <;> first | rfl | cases h

theorem groupFrom_eq_splitBy {current : Segment} (h : Open current) (slots : List Slot) :
    groupFrom current slots = (current ++ slots).splitBy joined := by
  induction slots generalizing current with
  | nil =>
      rw [groupFrom, List.append_nil]
      cases current with
      | nil => rfl
      | cons slot rest => exact (List.splitBy_of_isChain (by simp) h.joined).symm
  | cons slot slots ih =>
      rw [groupFrom]
      by_cases hstart : slot.isStart = true
      · have hslot := Open.singleton (not_isReset_of_isStart hstart)
        rw [if_pos hstart, ih hslot]
        cases current with
        | nil => rfl
        | cons first rest =>
            have hcut : ∀ last ∈ (first :: rest).getLast?, joined last slot = false :=
              fun last _ => joined_eq_false_iff.mpr (.inr hstart)
            rw [List.splitBy_append_cons slots hcut,
              List.splitBy_of_isChain (List.cons_ne_nil _ _) h.joined]
            rfl
      · have hstart : slot.isStart = false := by simpa using hstart
        rw [if_neg (by simp [hstart])]
        by_cases hreset : slot.isReset = true
        · have hcut : ∀ last ∈ (current ++ [slot]).getLast?, ∀ next ∈ slots.head?,
              joined last next = false := by
            intro last hlast next _
            rw [List.getLast?_concat] at hlast
            obtain rfl := Option.some.inj hlast
            exact joined_eq_false_iff.mpr (.inl hreset)
          have hslots : current ++ slot :: slots = (current ++ [slot]) ++ slots := by simp
          rw [if_pos hreset, ih .nil, List.nil_append, hslots,
            List.splitBy_append hcut, List.splitBy_of_isChain (by simp) (h.joined_concat hstart)]
          rfl
        · have hreset : slot.isReset = false := by simpa using hreset
          rw [if_neg (by simp [hreset]), ih (h.concat hstart hreset), List.append_assoc]
          rfl

/-- Segments are the parts between neighbors that are not joined. -/
theorem group_eq_splitBy (slots : List Slot) : group slots = slots.splitBy joined :=
  groupFrom_eq_splitBy .nil slots

theorem flatten_group (slots : List Slot) : (group slots).flatten = slots := by
  rw [group_eq_splitBy, List.flatten_splitBy]

theorem ne_nil_of_mem_group {slots : List Slot} {segment : Segment} (h : segment ∈ group slots) :
    segment ≠ [] := by
  rw [group_eq_splitBy] at h
  exact List.ne_nil_of_mem_splitBy h

theorem isChain_of_mem_group {slots : List Slot} {segment : Segment} (h : segment ∈ group slots) :
    segment.IsChain fun first second => joined first second = true := by
  rw [group_eq_splitBy] at h
  exact List.isChain_of_mem_splitBy h

theorem isChain_group (slots : List Slot) :
    (group slots).IsChain fun first second =>
      ∃ hlast hhead, joined (first.getLast hlast) (second.head hhead) = false := by
  rw [group_eq_splitBy]
  exact List.isChain_getLast_head_splitBy joined slots

theorem group_append {first second : List Slot}
    (h : ∀ last ∈ first.getLast?, ∀ next ∈ second.head?, joined last next = false) :
    group (first ++ second) = group first ++ group second := by
  simp only [group_eq_splitBy]
  exact List.splitBy_append h

/-- A boundary lies between two slots exactly if they are not joined. -/
theorem boundary_iff {before after : List Slot} {slot next : Slot} :
    (∃ first second, group (before ++ slot :: next :: after) = first ++ second ∧
      first.flatten = before ++ [slot]) ↔ slot.isReset = true ∨ next.isStart = true := by
  rw [← joined_eq_false_iff]
  constructor
  · rintro ⟨first, second, hgroup, hfirst⟩
    have hflatten : (first ++ second).flatten = before ++ slot :: next :: after := by
      rw [← hgroup, flatten_group]
    have hsecond : second.flatten = next :: after := by
      rw [List.flatten_append, hfirst, List.append_assoc] at hflatten
      exact List.append_cancel_left (List.append_cancel_left hflatten)
    have hfirst' : first.flatten ≠ [] := by simp [hfirst]
    have hsecond' : second.flatten ≠ [] := by simp [hsecond]
    have hchain := isChain_group (before ++ slot :: next :: after)
    rw [hgroup] at hchain
    have hne : first ≠ [] := fun hnil => hfirst' (by rw [hnil, List.flatten_nil])
    have hne' : second ≠ [] := fun hnil => hsecond' (by rw [hnil, List.flatten_nil])
    obtain ⟨hlast, hhead, hcut⟩ := hchain.rel_getLast_head_of_append hne hne'
    rw [List.getLast_getLast_eq_getLast_flatten hne hlast,
      List.head_head_eq_head_flatten hne' hhead] at hcut
    simpa [hfirst, hsecond] using hcut
  · intro hcut
    refine ⟨group (before ++ [slot]), group (next :: after), ?_, ?_⟩
    · rw [← group_append, List.append_assoc]
      · rfl
      · intro last hlast other hother
        rw [List.getLast?_concat] at hlast
        obtain rfl := Option.some.inj hlast
        obtain rfl := Option.some.inj hother
        exact hcut
    · exact flatten_group (before ++ [slot])

end ShellPrompt.Segment
