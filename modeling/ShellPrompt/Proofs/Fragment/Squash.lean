import ShellPrompt.Proofs.Fragment.Segmentation

/-! # What squashing keeps

Whether a fragment stays is decided at its own place: by the slots that no boundary divides from
it. -/

namespace ShellPrompt.Segment

/-- Whether a boundary lies behind a place. -/
def CutAfter (slots : List Slot) (place : Nat) : Prop :=
  ∃ slot next, slots[place]? = some slot ∧ slots[place + 1]? = some next ∧
    (slot.isReset = true ∨ next.isStart = true)

/-- Two places that no boundary divides. -/
def Together (slots : List Slot) (place other : Nat) : Prop :=
  ∀ between, min place other ≤ between → between < max place other → ¬ CutAfter slots between

/-- Whether the slots around a place stay: a component among them shows something, or none of them
is missing. -/
def Stays (slots : List Slot) (place : Nat) : Prop :=
  (∃ other text, Together slots place other ∧ slots[other]? = some (some (.value text))) ∨
    ∀ other, Together slots place other → slots[other]? ≠ some none

theorem Together.symm {slots : List Slot} {place other : Nat} (h : Together slots place other) :
    Together slots other place := by
  intro between hmin hmax
  rw [min_comm] at hmin
  rw [max_comm] at hmax
  exact h between hmin hmax

/-! ## The first segment -/

/-- Slots that begin with a segment. -/
structure Leads (segment : Segment) (rest : List Slot) : Prop where
  nonempty : segment ≠ []
  joined : segment.IsChain fun first second => joined first second = true
  cut : ∀ last ∈ segment.getLast?, ∀ next ∈ rest.head?, Segment.joined last next = false

section

variable {segment : Segment} {rest : List Slot} {place other : Nat}

theorem getElem?_behind (segment : Segment) (rest : List Slot) (place : Nat) :
    (segment ++ rest)[segment.length + place]? = rest[place]? := by
  rw [List.getElem?_append_right (Nat.le_add_right _ _), Nat.add_sub_cancel_left]

theorem cutAfter_append :
    CutAfter (segment ++ rest) (segment.length + place) ↔ CutAfter rest place := by
  rw [CutAfter, CutAfter, Nat.add_assoc, getElem?_behind, getElem?_behind]

theorem together_append :
    Together (segment ++ rest) (segment.length + place) (segment.length + other) ↔
      Together rest place other := by
  constructor
  · intro h between hmin hmax
    exact cutAfter_append.not.mp (h (segment.length + between) (by omega) (by omega))
  · intro h between hmin hmax
    obtain ⟨offset, rfl⟩ := Nat.exists_eq_add_of_le (m := segment.length) (n := between) (by omega)
    rw [cutAfter_append]
    exact h _ (by omega) (by omega)

theorem Leads.not_cutAfter (h : Leads segment rest) (hplace : place + 1 < segment.length) :
    ¬ CutAfter (segment ++ rest) place := by
  rintro ⟨slot, next, hslot, hnext, hcut⟩
  rw [List.getElem?_append_left (by omega), List.getElem?_eq_getElem (by omega)] at hslot
  rw [List.getElem?_append_left hplace, List.getElem?_eq_getElem hplace] at hnext
  have hjoined := List.isChain_iff_getElem.mp h.joined place hplace
  obtain rfl := Option.some.inj hslot
  obtain rfl := Option.some.inj hnext
  rw [joined_eq_false_iff.mpr hcut] at hjoined
  cases hjoined

theorem Leads.cutAfter (h : Leads segment rest) (hrest : rest ≠ []) :
    CutAfter (segment ++ rest) (segment.length - 1) := by
  have hlength := List.length_pos_iff.mpr h.nonempty
  obtain ⟨next, rest, rfl⟩ := List.exists_cons_of_ne_nil hrest
  refine ⟨segment.getLast h.nonempty, next, ?_, ?_, ?_⟩
  · rw [List.getElem?_append_left (by omega), ← List.getLast?_eq_getElem?,
      List.getLast?_eq_some_getLast h.nonempty]
  · rw [Nat.sub_add_cancel hlength, List.getElem?_append_right le_rfl, Nat.sub_self]
    rfl
  · exact joined_eq_false_iff.mp (h.cut _ (List.getLast?_eq_some_getLast h.nonempty) next rfl)

theorem Leads.together (h : Leads segment rest) (hplace : place < segment.length)
    (hother : other < segment.length) : Together (segment ++ rest) place other :=
  fun _ _ hmax => h.not_cutAfter (by omega)

theorem Leads.not_together (h : Leads segment rest) (hplace : place < segment.length)
    (hother : segment.length ≤ other) (hslot : other < (segment ++ rest).length) :
    ¬ Together (segment ++ rest) place other := by
  intro htogether
  have hrest : rest ≠ [] := by
    rintro rfl
    rw [List.append_nil] at hslot
    omega
  exact htogether (segment.length - 1) (by omega) (by omega) (h.cutAfter hrest)

/-! ## Staying with the first segment or behind it -/

/-- The slots together with one of the first segment are those of the segment. -/
theorem Leads.together_left_iff (h : Leads segment rest) {slot : Slot}
    (hplace : place < segment.length) :
    Together (segment ++ rest) place other ∧ (segment ++ rest)[other]? = some slot ↔
      segment[other]? = some slot := by
  constructor
  · rintro ⟨htogether, hslot⟩
    have hlength := (List.getElem?_eq_some_iff.mp hslot).1
    have hother : other < segment.length := by
      by_contra hother
      exact h.not_together hplace (by omega) hlength htogether
    rwa [List.getElem?_append_left hother] at hslot
  · intro hslot
    have hother := (List.getElem?_eq_some_iff.mp hslot).1
    exact ⟨h.together hplace hother, by rwa [List.getElem?_append_left hother]⟩

/-- Behind the first segment nothing is together with a slot of it. -/
theorem Leads.together_right_iff (h : Leads segment rest) {slot : Slot}
    (hplace : place < rest.length) :
    Together (segment ++ rest) (segment.length + place) other ∧
        (segment ++ rest)[other]? = some slot ↔
      ∃ offset, other = segment.length + offset ∧ Together rest place offset ∧
        rest[offset]? = some slot := by
  constructor
  · rintro ⟨htogether, hslot⟩
    have hother : segment.length ≤ other := by
      by_contra hother
      refine h.not_together (by omega) (Nat.le_add_right _ place) ?_ htogether.symm
      rw [List.length_append]
      omega
    obtain ⟨offset, rfl⟩ := Nat.exists_eq_add_of_le hother
    rw [getElem?_behind] at hslot
    exact ⟨offset, rfl, together_append.mp htogether, hslot⟩
  · rintro ⟨offset, rfl, htogether, hslot⟩
    exact ⟨together_append.mpr htogether, by rw [getElem?_behind, hslot]⟩

theorem isValue_iff {slot : Slot} : slot.isValue = true ↔ ∃ text, slot = some (.value text) := by
  cases slot with
  | none => simp [Slot.isValue]
  | some fragment => cases fragment <;> simp [Slot.isValue]

theorem keep_eq_true_iff : keep segment = true ↔
    (∃ (place : Nat) (text : String), segment[place]? = some (some (.value text))) ∨
      ∀ place : Nat, segment[place]? ≠ some none := by
  rw [keep, Bool.or_eq_true, List.any_eq_true, List.all_eq_true]
  refine or_congr ?_ ?_
  · constructor
    · rintro ⟨slot, hmem, hvalue⟩
      obtain ⟨place, hplace⟩ := List.mem_iff_getElem?.mp hmem
      obtain ⟨text, rfl⟩ := isValue_iff.mp hvalue
      exact ⟨place, text, hplace⟩
    · rintro ⟨place, text, hplace⟩
      exact ⟨_, List.mem_iff_getElem?.mpr ⟨place, hplace⟩, rfl⟩
  · constructor
    · intro hall place hplace
      exact absurd (hall none (List.mem_iff_getElem?.mpr ⟨place, hplace⟩)) (by simp)
    · intro hall slot hmem
      obtain ⟨place, hplace⟩ := List.mem_iff_getElem?.mp hmem
      cases slot with
      | none => exact absurd hplace (hall place)
      | some fragment => rfl

theorem Leads.stays_left (h : Leads segment rest) (hplace : place < segment.length) :
    Stays (segment ++ rest) place ↔ keep segment = true := by
  rw [keep_eq_true_iff, Stays]
  refine or_congr ?_ ?_
  · exact exists_congr fun other => exists_congr fun text => h.together_left_iff hplace
  · refine forall_congr' fun other => ?_
    rw [ne_eq, ne_eq, ← h.together_left_iff hplace, not_and]

theorem Leads.stays_right (h : Leads segment rest) (hplace : place < rest.length) :
    Stays (segment ++ rest) (segment.length + place) ↔ Stays rest place := by
  refine or_congr ?_ ?_
  · constructor
    · rintro ⟨other, text, hother⟩
      obtain ⟨offset, _, hoffset⟩ := (h.together_right_iff hplace).mp hother
      exact ⟨offset, text, hoffset⟩
    · rintro ⟨offset, text, hoffset⟩
      exact ⟨_, text, (h.together_right_iff hplace).mpr ⟨offset, rfl, hoffset⟩⟩
  · constructor
    · intro hall offset htogether hslot
      obtain ⟨htogether, hslot⟩ :=
        (h.together_right_iff hplace).mpr ⟨offset, rfl, htogether, hslot⟩
      exact hall _ htogether hslot
    · intro hall other htogether hslot
      obtain ⟨offset, _, htogether, hslot⟩ :=
        (h.together_right_iff hplace).mp ⟨htogether, hslot⟩
      exact hall offset htogether hslot

end

/-! ## All segments -/

/-- Fragments that are the ones of a list of slots that stay, each once and in order, by the places
they come from. -/
structure StayAt (slots : List Slot) (fragments : List Fragment) (places : List Nat) : Prop where
  increasing : places.Pairwise (· < ·)
  mem_iff : ∀ place, place ∈ places ↔
    (∃ fragment, slots[place]? = some (some fragment)) ∧ Stays slots place
  map_eq : places.map (fun place => slots[place]?) =
    fragments.map fun fragment => some (some fragment)

/-- The places at which something is present. -/
theorem exists_present (slots : List Slot) : ∃ places : List Nat, places.Pairwise (· < ·) ∧
    (∀ place, place ∈ places ↔ ∃ fragment, slots[place]? = some (some fragment)) ∧
    places.map (fun place => slots[place]?) =
      (slots.filterMap id).map fun fragment => some (some fragment) := by
  induction slots with
  | nil => exact ⟨[], .nil, by simp, rfl⟩
  | cons slot slots ih =>
      obtain ⟨places, hincreasing, hmem, hmap⟩ := ih
      have hshift : (places.map (· + 1)).Pairwise (· < ·) :=
        List.pairwise_map.mpr (hincreasing.imp fun h => by omega)
      have hmap' : (places.map (· + 1)).map (fun place => (slot :: slots)[place]?) =
          (slots.filterMap id).map fun fragment => some (some fragment) := by
        rw [← hmap, List.map_map]
        rfl
      cases slot with
      | none =>
          refine ⟨places.map (· + 1), hshift, fun place => ?_, hmap'⟩
          cases place with
          | zero => simp
          | succ place => simpa using hmem place
      | some fragment =>
          refine ⟨0 :: places.map (· + 1), hshift.cons (by simp), fun place => ?_, ?_⟩
          · cases place with
            | zero => simp
            | succ place => simpa using hmem place
          · rw [List.map_cons, hmap']
            rfl

/-- What stays of the first segment: all that is present, or nothing. -/
theorem Leads.exists_front {segment : Segment} {rest : List Slot} (h : Leads segment rest) :
    ∃ places : List Nat, places.Pairwise (· < ·) ∧
      (∀ place, place ∈ places ↔ place < segment.length ∧
        (∃ fragment, segment[place]? = some (some fragment)) ∧ Stays (segment ++ rest) place) ∧
      places.map (fun place => (segment ++ rest)[place]?) =
        (if keep segment = true then segment.filterMap id else []).map
          fun fragment => some (some fragment) := by
  by_cases hkeep : keep segment = true
  · obtain ⟨places, hincreasing, hmem, hmap⟩ := exists_present segment
    have hlength : ∀ place ∈ places, place < segment.length := by
      intro place hplace
      obtain ⟨fragment, hfragment⟩ := (hmem place).mp hplace
      exact (List.getElem?_eq_some_iff.mp hfragment).1
    refine ⟨places, hincreasing, fun place => ?_, ?_⟩
    · constructor
      · intro hplace
        exact ⟨hlength place hplace, (hmem place).mp hplace,
          (h.stays_left (hlength place hplace)).mpr hkeep⟩
      · rintro ⟨_, hpresent, _⟩
        exact (hmem place).mpr hpresent
    · rw [if_pos hkeep, ← hmap]
      exact List.map_congr_left fun place hplace => List.getElem?_append_left (hlength place hplace)
  · refine ⟨[], .nil, fun place => ?_, by rw [if_neg hkeep]; rfl⟩
    constructor
    · intro hplace
      simp at hplace
    · rintro ⟨hplace, _, hstays⟩
      exact absurd ((h.stays_left hplace).mp hstays) hkeep

theorem Leads.stayAt_append {segment : Segment} {rest : List Slot} {fragments : List Fragment}
    {places : List Nat} (h : Leads segment rest) (hrest : StayAt rest fragments places) :
    ∃ places, StayAt (segment ++ rest)
      ((if keep segment = true then segment.filterMap id else []) ++ fragments) places := by
  obtain ⟨front, hincreasing, hmem, hmap⟩ := h.exists_front
  refine ⟨front ++ places.map (segment.length + ·), ?_, ?_, ?_⟩
  · refine List.pairwise_append.mpr ⟨hincreasing, ?_, ?_⟩
    · exact List.pairwise_map.mpr (hrest.increasing.imp fun h => by omega)
    · intro first hfirst second hsecond
      obtain ⟨offset, _, rfl⟩ := List.mem_map.mp hsecond
      have := ((hmem first).mp hfirst).1
      omega
  · intro place
    rw [List.mem_append, hmem]
    by_cases hplace : place < segment.length
    · have hbehind : place ∉ places.map (segment.length + ·) := by
        intro hmap
        obtain ⟨offset, _, rfl⟩ := List.mem_map.mp hmap
        omega
      rw [List.getElem?_append_left hplace]
      simp only [hplace, hbehind, true_and, or_false]
    · obtain ⟨offset, rfl⟩ := Nat.exists_eq_add_of_le (Nat.le_of_not_lt hplace)
      have hoffset : segment.length + offset ∈ places.map (segment.length + ·) ↔
          offset ∈ places := by
        simp
      rw [hoffset, hrest.mem_iff, getElem?_behind]
      simp only [hplace, false_and, false_or]
      refine and_congr_right fun ⟨fragment, hfragment⟩ => ?_
      exact (h.stays_right (List.getElem?_eq_some_iff.mp hfragment).1).symm
  · rw [List.map_append, List.map_append, hmap, ← hrest.map_eq, List.map_map]
    exact congrArg _ (List.map_congr_left fun place _ => getElem?_behind segment rest place)

/-- Squashing keeps each fragment that stays, once and in order. -/
theorem exists_stayAt_flatten {segments : List Segment} (hne : ∀ segment ∈ segments, segment ≠ [])
    (hjoined : ∀ segment ∈ segments,
      segment.IsChain fun first second => joined first second = true)
    (hcut : segments.IsChain fun first second =>
      ∃ hlast hhead, joined (first.getLast hlast) (second.head hhead) = false) :
    ∃ places, StayAt segments.flatten
      ((segments.filter keep).flatMap fun segment => segment.filterMap id) places := by
  induction segments with
  | nil => exact ⟨[], .nil, by simp, rfl⟩
  | cons segment segments ih =>
      obtain ⟨hnonempty, hne⟩ := List.forall_mem_cons.mp hne
      obtain ⟨hsegment, hjoined⟩ := List.forall_mem_cons.mp hjoined
      obtain ⟨places, hplaces⟩ := ih hne hjoined hcut.tail
      have hleads : Leads segment segments.flatten := by
        refine ⟨hnonempty, hsegment, ?_⟩
        intro last hlast next hnext
        cases segments with
        | nil => simp at hnext
        | cons second segments =>
            obtain ⟨_, hhead, hfalse⟩ := hcut.rel
            have hlast' : segment.getLast hnonempty = last :=
              Option.some.inj ((List.getLast?_eq_some_getLast hnonempty).symm.trans hlast)
            have hnext' : second.head hhead = next := by
              rw [List.flatten_cons, List.head?_append, List.head?_eq_some_head hhead] at hnext
              exact Option.some.inj hnext
            rwa [hlast', hnext'] at hfalse
      obtain ⟨all, hall⟩ := hleads.stayAt_append hplaces
      refine ⟨all, ?_⟩
      rw [List.flatten_cons, List.filter_cons]
      by_cases hkeep : keep segment = true
      · rw [if_pos hkeep] at hall ⊢
        exact hall
      · rw [if_neg hkeep] at hall ⊢
        exact hall

theorem exists_stayAt_squash (slots : List Slot) :
    ∃ places, StayAt slots (squash slots) places := by
  have h := exists_stayAt_flatten (fun _ => ne_nil_of_mem_group) (fun _ => isChain_of_mem_group)
    (isChain_group slots)
  rwa [flatten_group] at h

theorem mem_of_mem_squash {slots : List Slot} {fragment : Fragment} (h : fragment ∈ squash slots) :
    some fragment ∈ slots := by
  obtain ⟨places, hplaces⟩ := exists_stayAt_squash slots
  have hmem : some (some fragment) ∈ places.map fun place => slots[place]? := by
    rw [hplaces.map_eq]
    exact List.mem_map_of_mem (f := fun fragment => some (some fragment)) h
  obtain ⟨place, _, hplace⟩ := List.mem_map.mp hmem
  exact List.mem_iff_getElem?.mpr ⟨place, hplace⟩

/-- Grouping divides slots into segments without losing any, exactly behind resets and in front of
starts; and squashing keeps exactly the fragments whose segment has a value or nothing missing. -/
theorem group_squash_spec (slots : List Slot) :
    (∀ segment ∈ group slots, segment ≠ []) ∧ (group slots).flatten = slots ∧
    (∀ before slot next after, slots = before ++ slot :: next :: after →
      ((∃ first second, group slots = first ++ second ∧ first.flatten = before ++ [slot]) ↔
        slot.isReset = true ∨ next.isStart = true)) ∧
    ∃ places, StayAt slots (squash slots) places := by
  refine ⟨fun _ => ne_nil_of_mem_group, flatten_group slots, ?_, exists_stayAt_squash slots⟩
  rintro before slot next after rfl
  exact boundary_iff

end ShellPrompt.Segment
