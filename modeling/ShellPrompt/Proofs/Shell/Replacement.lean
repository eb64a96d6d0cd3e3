import Mathlib.Data.List.Infix
import ShellPrompt.Shell.InitScript

/-! # Patterns with one place in a text

Where a text has only one place for a pattern, replacing the pattern fills that place and leaves the
rest as it is. A character that the pattern does not have divides a text: the pattern stands in
front of it or behind it. -/

namespace ShellPrompt.Shell

variable {pattern text before after : List Char}

/-- The only place of a pattern in a text stands between the two given parts. -/
def OnlyPlace (pattern text before after : List Char) : Prop :=
  ∀ left right, text = left ++ pattern ++ right ↔ left = before ∧ right = after

theorem OnlyPlace.eq (h : OnlyPlace pattern text before after) :
    text = before ++ pattern ++ after :=
  (h before after).mpr ⟨rfl, rfl⟩

/-- The number of places of a pattern in a text. -/
def countPlaces (pattern text : List Char) : Nat := text.tails.countP pattern.isPrefixOf

theorem onlyPlace_of_countPlaces (htext : text = before ++ pattern ++ after)
    (h : countPlaces pattern text = 1) : OnlyPlace pattern text before after := by
  rw [countPlaces, List.countP_eq_length_filter, List.length_eq_one_iff] at h
  obtain ⟨last, hlast⟩ := h
  have hends : ∀ left right, text = left ++ pattern ++ right → pattern ++ right = last := by
    intro left right hplace
    have hmem : pattern ++ right ∈ text.tails.filter pattern.isPrefixOf := by
      refine List.mem_filter.mpr ⟨?_, List.isPrefixOf_iff_prefix.mpr (List.prefix_append _ _)⟩
      exact (List.mem_tails _ _).mpr ⟨left, by rw [hplace, List.append_assoc]⟩
    rwa [hlast, List.mem_singleton] at hmem
  intro left right
  constructor
  · intro hplace
    obtain rfl : right = after := List.append_cancel_left
      ((hends left right hplace).trans (hends before after htext).symm)
    rw [hplace, List.append_cancel_right_eq, List.append_cancel_right_eq] at htext
    exact ⟨htext, rfl⟩
  · rintro ⟨rfl, rfl⟩
    exact htext

/-! ## Replacing -/

section

variable {replacement : List Char}

theorem replaceAll_cons_of_not_begins {c : Char} {rest : List Char}
    (h : ¬ pattern <+: c :: rest) :
    replaceAll pattern replacement (c :: rest) = c :: replaceAll pattern replacement rest := by
  rw [replaceAll, if_neg (by rwa [List.isPrefixOf_iff_prefix])]

theorem replaceAll_append (hne : pattern ≠ []) (rest : List Char) :
    replaceAll pattern replacement (pattern ++ rest) =
      replacement ++ replaceAll pattern replacement rest := by
  obtain ⟨c, pattern, rfl⟩ := List.exists_cons_of_ne_nil hne
  have hprefix : (c :: pattern).isPrefixOf (c :: (pattern ++ rest)) = true :=
    List.isPrefixOf_iff_prefix.mpr (List.prefix_append (c :: pattern) rest)
  rw [List.cons_append, replaceAll, if_pos hprefix, List.length_cons, Nat.add_sub_cancel,
    List.drop_left]

theorem replaceAll_of_not_infix (h : ¬ pattern <:+: text) :
    replaceAll pattern replacement text = text := by
  induction text with
  | nil => rw [replaceAll]
  | cons c rest ih =>
      rw [List.infix_cons_iff, not_or] at h
      rw [replaceAll_cons_of_not_begins h.1, ih h.2]

/-- Replacing fills the only place. -/
theorem OnlyPlace.replaceAll_eq (hne : pattern ≠ []) (h : OnlyPlace pattern text before after) :
    replaceAll pattern replacement text = before ++ replacement ++ after := by
  induction before generalizing text with
  | nil =>
      have hafter : ¬ pattern <:+: after := by
        rintro ⟨left, right, rfl⟩
        have hsecond := (h (pattern ++ left) right).mp (by simp [h.eq])
        exact hne (List.append_eq_nil_iff.mp hsecond.1).1
      rw [h.eq, List.nil_append, replaceAll_append hne, replaceAll_of_not_infix hafter]
      rfl
  | cons c before ih =>
      obtain ⟨rest, rfl⟩ : ∃ rest, text = c :: rest := ⟨_, h.eq⟩
      have hprefix : ¬ pattern <+: c :: rest := by
        rintro ⟨right, hright⟩
        cases ((h [] right).mp hright.symm).1
      have hrest : OnlyPlace pattern rest before after := by
        intro left right
        simpa using h (c :: left) right
      rw [replaceAll_cons_of_not_begins hprefix, ih hrest]
      rfl

end

/-! ## Dividing a text -/

section

variable {c : Char} {first second left right : List Char}

/-- A pattern stands in front of a character that it does not have, or behind it. -/
theorem append_cons_eq_iff (hc : c ∉ pattern) :
    first ++ c :: second = left ++ pattern ++ right ↔
      (∃ between, first = left ++ pattern ++ between ∧ right = between ++ c :: second) ∨
        ∃ between, left = first ++ c :: between ∧ second = between ++ pattern ++ right := by
  constructor
  · intro h
    rcases List.append_eq_append_iff.mp h with ⟨middle, hleft, hright⟩ | ⟨between, hfirst, hright⟩
    · cases middle with
      | nil => exact .inl ⟨[], by simpa using hleft.symm, by simpa using hright.symm⟩
      | cons d middle =>
          obtain ⟨rfl, rfl⟩ := List.cons.inj hright
          rcases List.append_eq_append_iff.mp hleft with ⟨last, _, hpattern⟩ | ⟨last, rfl, hlast⟩
          · exact (hc (by simp [hpattern])).elim
          · cases last with
            | nil =>
                obtain rfl : c :: middle = pattern := hlast
                exact (hc List.mem_cons_self).elim
            | cons d last =>
                obtain ⟨rfl, rfl⟩ := List.cons.inj hlast
                exact .inr ⟨last, rfl, rfl⟩
    · exact .inl ⟨between, hfirst, hright⟩
  · rintro (⟨between, rfl, rfl⟩ | ⟨between, rfl, rfl⟩) <;> simp

theorem infix_append_cons_iff (hc : c ∉ pattern) :
    pattern <:+: first ++ c :: second ↔ pattern <:+: first ∨ pattern <:+: second := by
  constructor
  · rintro ⟨left, right, h⟩
    rcases (append_cons_eq_iff hc).mp h.symm with ⟨between, hfirst, _⟩ | ⟨between, _, hsecond⟩
    · exact .inl ⟨left, between, hfirst.symm⟩
    · exact .inr ⟨between, right, hsecond.symm⟩
  · rintro (h | h)
    · exact h.trans (List.infix_append' [] first _)
    · exact h.trans (List.suffix_append_of_suffix (List.suffix_cons c second)).isInfix

/-- There is one place behind such a character exactly if there is none in front of it. -/
theorem onlyPlace_append_cons_iff (hc : c ∉ pattern) :
    OnlyPlace pattern (first ++ c :: second) (first ++ c :: before) after ↔
      ¬ pattern <:+: first ∧ OnlyPlace pattern second before after := by
  constructor
  · intro h
    refine ⟨?_, fun left right => ?_⟩
    · rintro ⟨left, right, rfl⟩
      have hplace := (h left (right ++ c :: second)).mp (by simp)
      have hlength := congrArg List.length hplace.1
      simp at hlength
    · simpa using h (first ++ c :: left) right
  · rintro ⟨hfirst, h⟩ left right
    rw [append_cons_eq_iff hc]
    constructor
    · rintro (⟨between, rfl, _⟩ | ⟨between, rfl, hsecond⟩)
      · exact (hfirst (List.infix_append left pattern between)).elim
      · obtain ⟨rfl, rfl⟩ := (h between right).mp hsecond
        exact ⟨rfl, rfl⟩
    · rintro ⟨rfl, rfl⟩
      exact .inr ⟨before, rfl, h.eq⟩

/-- What stands between two such characters may be exchanged for a text without the pattern. -/
theorem OnlyPlace.exchange {d : Char} {middle other : List Char} (hc : c ∉ pattern)
    (hd : d ∉ pattern) (hother : ¬ pattern <:+: other)
    (h : OnlyPlace pattern (first ++ c :: (middle ++ d :: second))
      (first ++ c :: (middle ++ d :: before)) after) :
    OnlyPlace pattern (first ++ c :: (other ++ d :: second))
      (first ++ c :: (other ++ d :: before)) after := by
  rw [onlyPlace_append_cons_iff hc, onlyPlace_append_cons_iff hd] at h ⊢
  exact ⟨h.1, hother, h.2.2⟩

end

end ShellPrompt.Shell
