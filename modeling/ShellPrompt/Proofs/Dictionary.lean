import Mathlib.Data.List.Basic
import ShellPrompt.Dictionary

/-! # Entering pairs into dictionaries

A value that is entered replaces the one its key had before and nothing else, so of pairs with equal
keys the last decides. Pairs with distinct keys are kept as they are. -/

namespace ShellPrompt.Dictionary

variable {α β : Type} [DecidableEq α]

theorem find?_enter (pairs : List (α × β)) (key k : α) (value : β) :
    ((enter key value pairs).find? fun pair => pair.1 = k).map Prod.snd =
      if k = key then some value else (pairs.find? fun pair => pair.1 = k).map Prod.snd := by
  induction pairs with
  | nil => by_cases h : k = key <;> simp [enter, h, eq_comm]
  | cons pair rest ih =>
      obtain ⟨other, old⟩ := pair
      by_cases hother : other = key
      · subst hother
        by_cases hk : k = other
        · simp [enter, hk]
        · simp [enter, hk, Ne.symm hk]
      · by_cases hk : other = k
        · subst hk
          simp [enter, hother]
        · simpa [enter, hother, hk] using ih

theorem get?_insert (d : Dictionary α β) (key k : α) (value : β) :
    (d.insert key value).get? k = if k = key then some value else d.get? k :=
  find?_enter d.entries key k value

theorem get?_insertAll (d : Dictionary α β) (pairs : List (α × β)) (key : α) :
    (d.insertAll pairs).get? key =
      ((pairs.reverse.find? fun pair => pair.1 = key).map Prod.snd).or (d.get? key) := by
  induction pairs generalizing d with
  | nil => rfl
  | cons pair rest ih =>
      rw [insertAll, List.foldl_cons]
      refine (ih (d.insert pair.1 pair.2)).trans ?_
      rw [get?_insert, List.reverse_cons, List.find?_append]
      cases rest.reverse.find? fun pair => pair.1 = key with
      | some other => rfl
      | none =>
          by_cases h : key = pair.1
          · simp [h]
          · simp [h, Ne.symm h]

/-- Of equal keys the last gives the value. -/
theorem get?_ofPairs (pairs : List (α × β)) (key : α) :
    (ofPairs pairs).get? key = (pairs.reverse.find? fun pair => pair.1 = key).map Prod.snd := by
  rw [ofPairs, get?_insertAll]
  exact Option.or_none

theorem enter_of_notMem {key : α} {value : β} {pairs : List (α × β)}
    (h : key ∉ pairs.map Prod.fst) : enter key value pairs = pairs ++ [(key, value)] := by
  induction pairs with
  | nil => rfl
  | cons pair rest ih =>
      rw [List.map_cons, List.mem_cons, not_or] at h
      rw [enter, if_neg (Ne.symm h.1), ih h.2, List.cons_append]

theorem entries_insertAll (d : Dictionary α β) (pairs : List (α × β))
    (h : ((d.entries ++ pairs).map Prod.fst).Nodup) :
    (d.insertAll pairs).entries = d.entries ++ pairs := by
  induction pairs generalizing d with
  | nil => simp [insertAll]
  | cons pair rest ih =>
      have hfresh : pair.1 ∉ d.entries.map Prod.fst := by
        rw [List.map_append, List.map_cons, List.nodup_append] at h
        exact fun hmem => h.2.2 pair.1 hmem pair.1 (by simp) rfl
      have hinsert : (d.insert pair.1 pair.2).entries = d.entries ++ [pair] := by
        rw [entries_insert, enter_of_notMem hfresh]
      have hrest := ih (d.insert pair.1 pair.2) (by rw [hinsert, List.append_assoc]; exact h)
      rw [hinsert, List.append_assoc] at hrest
      exact hrest

/-- A dictionary is made of its entries. -/
theorem ofPairs_entries (d : Dictionary α β) : ofPairs d.entries = d := by
  have h : (ofPairs d.entries).entries = d.entries := entries_insertAll empty d.entries d.nodup
  cases d
  exact (Dictionary.mk.injEq ..).mpr h

theorem mem_of_mem_enter {pair : α × β} {key : α} {value : β} {pairs : List (α × β)}
    (h : pair ∈ enter key value pairs) : pair = (key, value) ∨ pair ∈ pairs := by
  induction pairs with
  | nil => exact .inl (List.mem_singleton.mp h)
  | cons other rest ih =>
      obtain ⟨k, v⟩ := other
      by_cases hk : k = key
      · rw [enter, if_pos hk, List.mem_cons] at h
        rcases h with rfl | h
        · exact .inl (by rw [hk])
        · exact .inr (List.mem_cons_of_mem _ h)
      · rw [enter, if_neg hk, List.mem_cons] at h
        rcases h with rfl | h
        · exact .inr (List.mem_cons_self ..)
        · exact (ih h).imp_right (List.mem_cons_of_mem _)

theorem mem_of_mem_insertAll {d : Dictionary α β} {pairs : List (α × β)} {pair : α × β}
    (h : pair ∈ (d.insertAll pairs).entries) : pair ∈ pairs ∨ pair ∈ d.entries := by
  induction pairs generalizing d with
  | nil => exact .inr h
  | cons other rest ih =>
      rcases ih (d := d.insert other.1 other.2) h with h | h
      · exact .inl (List.mem_cons_of_mem _ h)
      · rcases mem_of_mem_enter h with rfl | h
        · exact .inl (List.mem_cons_self ..)
        · exact .inr h

/-- Entries are pairs that were entered. -/
theorem mem_of_mem_ofPairs {pairs : List (α × β)} {pair : α × β}
    (h : pair ∈ (ofPairs pairs).entries) : pair ∈ pairs := by
  rcases mem_of_mem_insertAll h with h | h
  · exact h
  · simp at h

theorem entries_ofPairs_eq_nil_iff {pairs : List (α × β)} :
    (ofPairs pairs).entries = [] ↔ pairs = [] := by
  constructor
  · intro h
    by_contra hne
    obtain ⟨pair, rest, rfl⟩ := List.exists_cons_of_ne_nil hne
    have hfind := get?_ofPairs (pair :: rest) pair.1
    rw [get?, h, List.find?_nil, Option.map_none, eq_comm, Option.map_eq_none_iff,
      List.find?_eq_none] at hfind
    exact hfind pair (by simp) (by simp)
  · rintro rfl
    rfl

theorem get?_eq_some_iff {d : Dictionary α β} {key : α} {value : β} :
    d.get? key = some value ↔ (key, value) ∈ d.entries := by
  obtain ⟨pairs, hnodup⟩ := d
  simp only [get?]
  induction pairs with
  | nil => simp
  | cons pair rest ih =>
      obtain ⟨k, v⟩ := pair
      rw [List.map_cons, List.nodup_cons] at hnodup
      by_cases hk : k = key
      · subst hk
        have hfresh : (k, value) ∉ rest := fun hmem =>
          hnodup.1 (List.mem_map.mpr ⟨(k, value), hmem, rfl⟩)
        simp [hfresh, eq_comm]
      · simpa [hk, Ne.symm hk] using ih hnodup.2

end ShellPrompt.Dictionary
