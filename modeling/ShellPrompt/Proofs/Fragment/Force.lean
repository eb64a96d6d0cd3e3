import Mathlib.Data.Nat.Find
import ShellPrompt.Proofs.Fragment.Squash

/-! # Styles in force

The start of a style is in force from its place up to the next reset. A segment that goes takes its
reset with it, and the styles that were to end there stay in force. So a style can be lost only
together with what it is for, but it can last longer than it should: exactly where a later style
shares its reset and the segment of that later style goes. -/

namespace ShellPrompt.Segment

/-- Whether the style that starts at one place is in force at another. The place behind the last
slot stands for the end. -/
structure InForce (slots : List Slot) (start place : Nat) : Prop where
  lt : start < place
  starts : ∃ slot, slots[start]? = some slot ∧ slot.isStart = true
  unended : ∀ between slot, start < between → between < place → slots[between]? = some slot →
    slot.isReset = false

/-- Whether the style that starts at one place is ended before another, but only by resets that do
not stay. -/
structure Leaks (slots : List Slot) (start place : Nat) : Prop where
  starts : ∃ slot, slots[start]? = some slot ∧ slot.isStart = true
  ended : ∃ between slot, start < between ∧ between < place ∧ slots[between]? = some slot ∧
    slot.isReset = true
  lost : ∀ between slot, start < between → between < place → slots[between]? = some slot →
    slot.isReset = true → ¬ Stays slots between

/-- The place that a fragment had before squashing, where `places` are those that stay. The end
stays the end. -/
def origin (slots : List Slot) (places : List Nat) (place : Nat) : Nat :=
  places[place]?.getD slots.length

/-! ## Places before and after -/

section

variable {slots : List Slot} {fragments : List Fragment} {places : List Nat} {place other : Nat}

theorem origin_of_lt (hplace : place < places.length) : origin slots places place = places[place] := by
  rw [origin, List.getElem?_eq_getElem hplace, Option.getD_some]

theorem origin_of_le (hplace : places.length ≤ place) : origin slots places place = slots.length := by
  rw [origin, List.getElem?_eq_none hplace, Option.getD_none]

theorem StayAt.length_eq (h : StayAt slots fragments places) : places.length = fragments.length := by
  simpa using congrArg List.length h.map_eq

/-- A fragment that stays is the one that was at its place. -/
theorem StayAt.getElem?_map_some (h : StayAt slots fragments places)
    (hplace : place < places.length) :
    (fragments.map some)[place]? = slots[origin slots places place]? := by
  have hfragment := h.length_eq ▸ hplace
  have hmap := congrArg (fun list => list[place]?) h.map_eq
  simp only [List.getElem?_map, List.getElem?_eq_getElem hplace,
    List.getElem?_eq_getElem hfragment, Option.map_some] at hmap
  rw [origin_of_lt hplace, Option.some.inj hmap, List.getElem?_map,
    List.getElem?_eq_getElem hfragment, Option.map_some]

theorem StayAt.stays_origin (h : StayAt slots fragments places) (hplace : place < places.length) :
    origin slots places place < slots.length ∧ Stays slots (origin slots places place) := by
  have hmem := (h.mem_iff places[place]).mp (List.getElem_mem hplace)
  obtain ⟨⟨fragment, hfragment⟩, hstays⟩ := hmem
  rw [origin_of_lt hplace]
  exact ⟨(List.getElem?_eq_some_iff.mp hfragment).1, hstays⟩

/-- What stays keeps its order. -/
theorem StayAt.origin_lt_iff (h : StayAt slots fragments places) (hplace : place < places.length) :
    origin slots places place < origin slots places other ↔ place < other := by
  have hincreasing := List.pairwise_iff_getElem.mp h.increasing
  by_cases hother : other < places.length
  · rw [origin_of_lt hplace, origin_of_lt hother]
    constructor
    · intro hlt
      by_contra hle
      rcases Nat.lt_or_eq_of_le (Nat.le_of_not_lt hle) with hgt | rfl
      · exact absurd (hincreasing other place hother hplace hgt) (by omega)
      · omega
    · exact hincreasing place other hplace hother
  · rw [origin_of_le (Nat.le_of_not_lt hother)]
    have hlength := (h.stays_origin hplace).1
    omega

/-- Where something is present and stays, it comes from there. -/
theorem StayAt.exists_origin_eq (h : StayAt slots fragments places)
    (hpresent : ∃ fragment, slots[other]? = some (some fragment)) (hstays : Stays slots other) :
    ∃ place, place < places.length ∧ origin slots places place = other := by
  obtain ⟨place, hplace, heq⟩ := List.getElem_of_mem ((h.mem_iff other).mpr ⟨hpresent, hstays⟩)
  exact ⟨place, hplace, (origin_of_lt hplace).trans heq⟩

end

theorem exists_of_isReset {slot : Slot} (h : slot.isReset = true) :
    ∃ fragment, slot = some fragment := by
  cases slot with
  | none => cases h
  | some fragment => exact ⟨fragment, rfl⟩

/-! ## Force after squashing -/

section

variable {slots : List Slot} {places : List Nat} {start place : Nat}

/-- After squashing, only the resets that stay end a style. -/
theorem StayAt.inForce_iff (h : StayAt slots (squash slots) places)
    (hplace : place ≤ places.length) :
    InForce ((squash slots).map some) start place ↔
      start < place ∧
      (∃ slot, slots[origin slots places start]? = some slot ∧ slot.isStart = true) ∧
      ∀ between slot, origin slots places start < between → between < origin slots places place →
        slots[between]? = some slot → slot.isReset = true → ¬ Stays slots between := by
  constructor
  · rintro ⟨hlt, hstarts, hunended⟩
    have hstart := h.getElem?_map_some (show start < places.length by omega)
    refine ⟨hlt, hstart ▸ hstarts, ?_⟩
    intro between slot hafter hbefore hslot hreset hstays
    obtain ⟨fragment, rfl⟩ := exists_of_isReset hreset
    obtain ⟨kept, hkept, rfl⟩ := h.exists_origin_eq ⟨fragment, hslot⟩ hstays
    have hfalse := hunended kept (some fragment) ((h.origin_lt_iff (by omega)).mp hafter)
      ((h.origin_lt_iff hkept).mp hbefore) ((h.getElem?_map_some hkept).trans hslot)
    rw [hreset] at hfalse
    cases hfalse
  · rintro ⟨hlt, hstarts, hlost⟩
    have hstart := h.getElem?_map_some (show start < places.length by omega)
    refine ⟨hlt, hstart.symm ▸ hstarts, ?_⟩
    intro between slot hafter hbefore hslot
    by_contra hreset
    have hbetween : between < places.length := by omega
    rw [h.getElem?_map_some hbetween] at hslot
    exact hlost _ slot ((h.origin_lt_iff (by omega)).mpr hafter)
      ((h.origin_lt_iff hbetween).mpr hbefore) hslot (by simpa using hreset)
      (h.stays_origin hbetween).2

/-- After squashing, the styles in force are those that were in force and those that leak. -/
theorem StayAt.inForce_iff_or_leaks (h : StayAt slots (squash slots) places)
    (hplace : place ≤ places.length) :
    InForce ((squash slots).map some) start place ↔
      InForce slots (origin slots places start) (origin slots places place) ∨
        Leaks slots (origin slots places start) (origin slots places place) := by
  rw [h.inForce_iff hplace]
  constructor
  · rintro ⟨hlt, hstarts, hlost⟩
    have horigin : origin slots places start < origin slots places place :=
      (h.origin_lt_iff (by omega)).mpr hlt
    by_cases hended : ∃ between slot, origin slots places start < between ∧
        between < origin slots places place ∧ slots[between]? = some slot ∧ slot.isReset = true
    · exact .inr ⟨hstarts, hended, hlost⟩
    · refine .inl ⟨horigin, hstarts, fun between slot hafter hbefore hslot => ?_⟩
      by_contra hreset
      exact hended ⟨between, slot, hafter, hbefore, hslot, by simpa using hreset⟩
  · have hstart : (∃ slot, slots[origin slots places start]? = some slot ∧ slot.isStart = true) →
        start < places.length := by
      rintro ⟨slot, hslot, _⟩
      by_contra hle
      rw [origin_of_le (Nat.le_of_not_lt hle), List.getElem?_eq_none le_rfl] at hslot
      cases hslot
    rintro (hforce | hleaks)
    · refine ⟨(h.origin_lt_iff (hstart hforce.starts)).mp hforce.lt, hforce.starts, ?_⟩
      intro between slot hafter hbefore hslot hreset
      rw [hforce.unended between slot hafter hbefore hslot] at hreset
      cases hreset
    · obtain ⟨between, slot, hafter, hbefore, hslot, hreset⟩ := hleaks.ended
      exact ⟨(h.origin_lt_iff (hstart hleaks.starts)).mp (hafter.trans hbefore), hleaks.starts,
        hleaks.lost⟩

end

/-! ## Where a style leaks -/

section

variable {slots : List Slot} {start place other : Nat}

theorem Together.trans {middle : Nat} (h₁ : Together slots place middle)
    (h₂ : Together slots middle other) : Together slots place other := by
  intro between hmin hmax
  by_cases hbetween : min place middle ≤ between ∧ between < max place middle
  · exact h₁ between hbetween.1 hbetween.2
  · exact h₂ between (by omega) (by omega)

theorem Together.stays (h : Together slots place other) (hstays : Stays slots place) :
    Stays slots other := by
  rcases hstays with ⟨value, text, htogether, hvalue⟩ | hpresent
  · exact .inl ⟨value, text, h.symm.trans htogether, hvalue⟩
  · exact .inr fun missing htogether => hpresent missing (h.trans htogether)

theorem Leaks.exists_first_reset (h : Leaks slots start place) :
    ∃ between, (start < between ∧ between < place ∧
        ∃ slot, slots[between]? = some slot ∧ slot.isReset = true) ∧
      ∀ earlier slot, start < earlier → earlier < between → slots[earlier]? = some slot →
        slot.isReset = false := by
  classical
  have hends : ∃ between, start < between ∧ between < place ∧
      ∃ slot, slots[between]? = some slot ∧ slot.isReset = true := by
    obtain ⟨between, slot, hafter, hbefore, hslot⟩ := h.ended
    exact ⟨between, hafter, hbefore, slot, hslot⟩
  have hspec := Nat.find_spec hends
  refine ⟨Nat.find hends, hspec, fun earlier slot hstart hlt hslot => ?_⟩
  by_contra htrue
  exact Nat.find_min hends hlt
    ⟨hstart, hlt.trans hspec.2.1, slot, hslot, by simpa using htrue⟩

/-- A style that stays and leaks has another behind it, which starts before the first is ended. -/
theorem Leaks.exists_start (h : Leaks slots start place) (hstays : Stays slots start) :
    ∃ next slot, InForce slots start next ∧ next < place ∧ slots[next]? = some slot ∧
      slot.isStart = true := by
  obtain ⟨first, hfirst⟩ := h.starts
  obtain ⟨between, ⟨hafter, hbefore, reset, hreset⟩, hunended⟩ := h.exists_first_reset
  -- The first reset behind the start has gone, so a boundary divides it from the start.
  have hapart : ¬ Together slots start between := fun htogether =>
    h.lost between reset hafter hbefore hreset.1 hreset.2 (htogether.stays hstays)
  simp only [Together, not_forall, not_not] at hapart
  obtain ⟨last, hmin, hmax, slot, next, hslot, hnext, hcut⟩ := hapart
  have hopen : slot.isReset = false := by
    by_cases heq : last = start
    · rw [heq, hfirst.1] at hslot
      obtain rfl := Option.some.inj hslot
      exact not_isReset_of_isStart hfirst.2
    · exact hunended last slot (by omega) (by omega) hslot
  have hnextStart : next.isStart = true := hcut.resolve_left (by simp [hopen])
  refine ⟨last + 1, next, ⟨by omega, ⟨first, hfirst⟩, ?_⟩, by omega, hnext, hnextStart⟩
  intro earlier other hstart hlt
  exact hunended earlier other hstart (by omega)

end

/-- What squashing does to the styles in force. A style that was in force at a fragment that stays,
or at the end, is in force there afterwards if it stays itself. The only others in force are those
that leak: some resets were to end them, and none of these stays. Nothing leaks where no style
starts while another is in force, whatever is missing. -/
theorem inForce_squash_iff (slots : List Slot) :
    ∃ places, StayAt slots (squash slots) places ∧
      (∀ start place, place ≤ (squash slots).length →
        (InForce ((squash slots).map some) start place ↔
          InForce slots (origin slots places start) (origin slots places place) ∨
            Leaks slots (origin slots places start) (origin slots places place))) ∧
      ((∀ start next slot, InForce slots start next → slots[next]? = some slot →
          slot.isStart = false) →
        ∀ start place, place ≤ (squash slots).length →
          InForce ((squash slots).map some) start place →
          InForce slots (origin slots places start) (origin slots places place)) := by
  obtain ⟨places, hstay⟩ := exists_stayAt_squash slots
  have hlength := hstay.length_eq
  refine ⟨places, hstay, fun start place hplace => hstay.inForce_iff_or_leaks (by omega), ?_⟩
  intro hsingle start place hplace hforce
  rcases (hstay.inForce_iff_or_leaks (by omega)).mp hforce with horigin | hleaks
  · exact horigin
  · have hstart : start < places.length := by
      have := hforce.lt
      omega
    obtain ⟨next, slot, hnext, _, hslot, hisStart⟩ :=
      hleaks.exists_start (hstay.stays_origin hstart).2
    rw [hsingle _ _ slot hnext hslot] at hisStart
    cases hisStart

/-- Two styles with one reset: a branch in the first, nothing stashed in the second. -/
def sharedReset : List Slot :=
  [some (.start "\x1b[32m"), some (.value "main"), some (.start "\x1b[33m"), none,
    some (.reset "\x1b[0m"), some (.text " $ ")]

theorem place_sharedReset : ∀ place < sharedReset.length,
    (sharedReset[place]? = some (some (.start "\x1b[32m")) → place = 0) ∧
      (sharedReset[place]? = some (some (.text " $ ")) → place = 5) := by
  decide

/-- The second style goes with the reset. The first was in force neither at the text behind it nor
at the end, and afterwards it is in force at both. -/
theorem inForce_squash_sharedReset :
    squash sharedReset = [.start "\x1b[32m", .value "main", .text " $ "] ∧
    (∃ places, StayAt sharedReset (squash sharedReset) places ∧ origin sharedReset places 0 = 0 ∧
      origin sharedReset places 2 = 5 ∧ origin sharedReset places 3 = 6) ∧
    (InForce ((squash sharedReset).map some) 0 2 ∧ ¬ InForce sharedReset 0 5) ∧
    InForce ((squash sharedReset).map some) 0 3 ∧ ¬ InForce sharedReset 0 6 := by
  have hsquash : squash sharedReset = [.start "\x1b[32m", .value "main", .text " $ "] := rfl
  obtain ⟨places, hstay⟩ := exists_stayAt_squash sharedReset
  have hlength : places.length = 3 := hstay.length_eq
  have hfirst := hstay.getElem?_map_some (show 0 < places.length by omega)
  have hlast := hstay.getElem?_map_some (show 2 < places.length by omega)
  have hended : ∀ place, 4 < place → ¬ InForce sharedReset 0 place := by
    intro place hplace hforce
    cases hforce.unended 4 _ (by omega) hplace rfl
  have hforce : InForce ((squash sharedReset).map some) 0 3 := by
    rw [hsquash]
    refine ⟨by omega, ⟨_, rfl, rfl⟩, ?_⟩
    intro between slot hafter hbefore hslot
    obtain rfl | rfl : between = 1 ∨ between = 2 := by omega
    · obtain rfl := Option.some.inj hslot
      rfl
    · obtain rfl := Option.some.inj hslot
      rfl
  have hearlier : InForce ((squash sharedReset).map some) 0 2 :=
    ⟨by omega, hforce.starts, fun between slot hafter hbefore =>
      hforce.unended between slot hafter (by omega)⟩
  refine ⟨hsquash, ⟨places, hstay, ?_, ?_, origin_of_le hlength.le⟩,
    ⟨hearlier, hended 5 (by omega)⟩, hforce, hended 6 (by omega)⟩
  · exact (place_sharedReset _ (hstay.stays_origin (by omega)).1).1 hfirst.symm
  · exact (place_sharedReset _ (hstay.stays_origin (by omega)).1).2 hlast.symm

end ShellPrompt.Segment
