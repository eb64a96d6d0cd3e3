import Mathlib.Data.List.Basic
import ShellPrompt.Data.Basic

/-! # Keys of mappings

Whether two keys are one is decided by what they stand for. So a key is found wherever one that
stands for the same is, and a mapping that is built entry by entry never has a key twice. -/

namespace ShellPrompt

/-! ## Keys that are one -/

/-- What a number stands for as a key: zeros of both signs are one. -/
def Binary64.identity : Binary64 → Binary64
  | finite negative mantissa exponent =>
    if mantissa = 0 then finite false 0 0 else finite negative mantissa exponent
  | x => x

theorem Binary64.identity_eq_iff {x y : Binary64} :
    x.identity = y.identity ↔ x.same y = true ∨ x = nan ∧ y = nan := by
  cases x with
  | nan =>
      cases y with
      | nan => simp
      | infinite b => simp [same, identity]
      | finite b n f => by_cases hn : n = 0 <;> simp [same, identity, hn]
  | infinite a =>
      cases y with
      | nan => simp [same, identity]
      | infinite b => simp [same, identity]
      | finite b n f => by_cases hn : n = 0 <;> simp [same, identity, hn]
  | finite a m e =>
      cases y with
      | nan => by_cases hm : m = 0 <;> simp [same, identity, hm]
      | infinite b => by_cases hm : m = 0 <;> simp [same, identity, hm]
      | finite b n f =>
          by_cases hm : m = 0
          · by_cases hn : n = 0
            · simp [same, identity, hm, hn]
            · simp [same, identity, hm, hn, Ne.symm hn]
          · by_cases hn : n = 0
            · simp [same, identity, hm, hn]
            · simp [same, identity, hm, hn, and_assoc]

namespace Scalar

/-- What decides whether keys are one. -/
inductive Identity where
  | whole (value : Int)
  | fraction (value : Binary64)
  | moment (hasOffset : Bool) (instant : Int)
  | itself (key : Scalar)

/-- What a key stands for: a whole number if it equals one; otherwise a fraction, a point in time or
only itself. -/
def identity (key : Scalar) : Identity :=
  match key.whole?, key with
  | some n, _ => .whole n
  | none, float x => .fraction x.identity
  | none, moment m => .moment m.offset.isSome m.instant
  | none, other => .itself other

theorem same_iff {a b : Scalar} : a.same b = true ↔ a.identity = b.identity := by
  unfold same identity
  cases ha : a.whole? with
  | some m =>
      cases hb : b.whole? with
      | some n => simp
      | none => cases b <;> simp
  | none =>
      cases hb : b.whole? with
      | some n => cases a <;> simp
      | none =>
          clear ha hb
          cases a <;> cases b <;> simp [Binary64.identity_eq_iff, Moment.same]

@[simp] theorem same_self (key : Scalar) : key.same key = true := same_iff.mpr rfl

theorem same_comm (a b : Scalar) : a.same b = b.same a := by
  rw [Bool.eq_iff_iff, same_iff, same_iff, eq_comm]

/-- Keys that are one are one with the same keys. -/
theorem same_congr {a b : Scalar} (h : a.same b = true) (key : Scalar) :
    a.same key = b.same key := by
  rw [Bool.eq_iff_iff, same_iff, same_iff, same_iff.mp h]

theorem same_congr_right {a b : Scalar} (h : a.same b = true) (key : Scalar) :
    key.same a = key.same b := by
  rw [same_comm key, same_comm key, same_congr h]

end Scalar

namespace Entries

variable {entries : Entries} {entry : Scalar × Data} {key other : Scalar} {value : Data}

/-! ## Looking up -/

@[simp] theorem get?_nil (key : Scalar) : get? [] key = none := rfl

theorem get?_cons_of_same (h : entry.1.same key = true) :
    get? (entry :: entries) key = some entry.2 := by
  simp [get?, h]

theorem get?_cons_of_not_same (h : entry.1.same key = false) :
    get? (entry :: entries) key = get? entries key := by
  simp [get?, h]

theorem get?_congr (h : key.same other = true) : get? entries key = get? entries other := by
  have hsame : (fun entry : Scalar × Data => entry.1.same key) = fun entry => entry.1.same other :=
    funext fun entry => Scalar.same_congr_right h entry.1
  rw [get?, get?, hsame]

theorem get?_eq_none_iff :
    get? entries key = none ↔ ∀ entry ∈ entries, entry.1.same key = false := by
  simp [get?]

theorem exists_of_get?_eq_some (h : get? entries key = some value) :
    ∃ entry ∈ entries, entry.1.same key = true ∧ entry.2 = value := by
  obtain ⟨entry, hfind, rfl⟩ := Option.map_eq_some_iff.mp h
  have hsame : entry.1.same key = true := by simpa using List.find?_some hfind
  exact ⟨entry, List.mem_of_find?_eq_some hfind, hsame, rfl⟩

/-! ## Distinct keys -/

/-- No key occurs twice. -/
def Distinct (entries : Entries) : Prop :=
  entries.Pairwise fun first second => first.1.same second.1 = false

theorem distinct_nil : Distinct [] := .nil

theorem Distinct.get?_tail (h : Distinct (entry :: entries)) : get? entries entry.1 = none := by
  apply get?_eq_none_iff.mpr
  intro later hlater
  rw [Scalar.same_comm]
  exact (List.pairwise_cons.mp h).1 later hlater

/-- Where no key occurs twice, each entry gives the value of its key. -/
theorem Distinct.get?_of_mem (h : Distinct entries) (hentry : entry ∈ entries) :
    get? entries entry.1 = some entry.2 := by
  induction entries with
  | nil => cases hentry
  | cons first rest ih =>
      obtain ⟨hfirst, hrest⟩ := List.pairwise_cons.mp h
      rcases List.mem_cons.mp hentry with rfl | hmem
      · exact get?_cons_of_same (Scalar.same_self _)
      · rw [get?_cons_of_not_same (hfirst entry hmem)]
        exact ih hrest hmem

theorem Distinct.concat (h : Distinct entries) (hentry : get? entries entry.1 = none) :
    Distinct (entries ++ [entry]) := by
  apply List.pairwise_append.mpr
  refine ⟨h, List.pairwise_singleton .., fun first hfirst last hlast => ?_⟩
  rw [List.mem_singleton.mp hlast]
  exact get?_eq_none_iff.mp hentry first hfirst

/-- Only keys matter for whether one of them occurs twice. -/
theorem Distinct.map_values (h : Distinct entries) {change : Scalar × Data → Scalar × Data}
    (hchange : ∀ entry, (change entry).1 = entry.1) : Distinct (entries.map change) := by
  apply List.pairwise_map.mpr
  apply List.Pairwise.imp _ h
  intro first second hfirst
  rw [hchange, hchange, hfirst]

/-! ## Changing a value -/

variable {change : Option Data → Data}

theorem alter_of_absent (h : get? entries key = none) :
    alter key change entries = entries ++ [(key, change none)] := by
  induction entries with
  | nil => rfl
  | cons entry rest ih =>
      obtain ⟨hentry, hrest⟩ := List.forall_mem_cons.mp (get?_eq_none_iff.mp h)
      rw [alter, if_neg (by simp [hentry]), ih (get?_eq_none_iff.mpr hrest), List.cons_append]

theorem alter_of_present (hdistinct : Distinct entries) (h : get? entries key ≠ none) :
    alter key change entries =
      entries.map fun entry =>
        (entry.1, if entry.1.same key then change (some entry.2) else entry.2) := by
  induction entries with
  | nil => exact absurd rfl h
  | cons entry rest ih =>
      obtain ⟨first, value⟩ := entry
      obtain ⟨hfirst, hrest⟩ := List.pairwise_cons.mp hdistinct
      by_cases hsame : first.same key = true
      · rw [alter, if_pos hsame, List.map_cons, if_pos hsame]
        congr 1
        apply (List.map_id _).symm.trans
        apply List.map_congr_left
        intro later hlater
        have hlater : later.1.same key = false := by
          rw [← Scalar.same_congr_right hsame, Scalar.same_comm]
          exact hfirst later hlater
        simp [hlater]
      · have hsame : first.same key = false := by simpa using hsame
        rw [get?_cons_of_not_same hsame] at h
        rw [alter, if_neg (by simp [hsame]), ih hrest h, List.map_cons, if_neg (by simp [hsame])]

theorem Distinct.alter (h : Distinct entries) : Distinct (alter key change entries) := by
  by_cases hkey : get? entries key = none
  · rw [alter_of_absent hkey]
    exact h.concat hkey
  · rw [alter_of_present h hkey]
    exact h.map_values fun _ => rfl

theorem get?_alter :
    get? (alter key change entries) other =
      if key.same other then some (change (get? entries key)) else get? entries other := by
  induction entries with
  | nil => by_cases h : key.same other = true <;> simp [alter, get?, h]
  | cons entry rest ih =>
      obtain ⟨first, value⟩ := entry
      by_cases hsame : first.same key = true
      · have hold : get? ((first, value) :: rest) key = some value := get?_cons_of_same hsame
        rw [alter, if_pos hsame, hold]
        by_cases hother : key.same other = true
        · have hfirst : first.same other = true := (Scalar.same_congr hsame other).trans hother
          rw [if_pos hother, get?_cons_of_same hfirst]
        · have hfirst : first.same other = false := by
            rw [Scalar.same_congr hsame]
            simpa using hother
          rw [if_neg hother, get?_cons_of_not_same hfirst, get?_cons_of_not_same hfirst]
      · have hsame : first.same key = false := by simpa using hsame
        have hold : get? ((first, value) :: rest) key = get? rest key := get?_cons_of_not_same hsame
        rw [alter, if_neg (by simp [hsame]), hold]
        by_cases hfirst : first.same other = true
        · have hother : key.same other = false := by
            rw [Scalar.same_comm, ← Scalar.same_congr hfirst]
            exact hsame
          rw [get?_cons_of_same hfirst, get?_cons_of_same hfirst, if_neg (by simp [hother])]
        · have hfirst : first.same other = false := by simpa using hfirst
          rw [get?_cons_of_not_same hfirst, get?_cons_of_not_same hfirst, ih]

theorem mem_alter (h : entry ∈ alter key change entries) :
    entry ∈ entries ∨ ∃ old, entry.2 = change old := by
  induction entries with
  | nil => exact .inr ⟨none, congrArg Prod.snd (List.mem_singleton.mp h)⟩
  | cons first rest ih =>
      rw [alter] at h
      split at h
      · rcases List.mem_cons.mp h with rfl | h
        · exact .inr ⟨_, rfl⟩
        · exact .inl (List.mem_cons_of_mem _ h)
      · rcases List.mem_cons.mp h with rfl | h
        · exact .inl List.mem_cons_self
        · exact (ih h).imp_left (List.mem_cons_of_mem _)

/-! ## Entering pairs -/

/-- Entries that were entered one after another have distinct keys. -/
theorem distinct_ofPairs (pairs : List (Scalar × Data)) : Distinct (ofPairs pairs) := by
  have hfold : ∀ entries : Entries, Distinct entries →
      Distinct (pairs.foldl (fun entries pair => enter pair.1 pair.2 entries) entries) := by
    induction pairs with
    | nil => exact fun _ h => h
    | cons pair pairs ih => exact fun entries h => ih _ h.alter
  exact hfold [] distinct_nil

/-- Values are those that were entered. -/
theorem exists_of_mem_ofPairs {pairs : List (Scalar × Data)} (h : entry ∈ ofPairs pairs) :
    ∃ pair ∈ pairs, pair.2 = entry.2 := by
  have hfold : ∀ entries : Entries,
      entry ∈ pairs.foldl (fun entries pair => enter pair.1 pair.2 entries) entries →
      entry ∈ entries ∨ ∃ pair ∈ pairs, pair.2 = entry.2 := by
    clear h
    induction pairs with
    | nil => exact fun _ h => .inl h
    | cons pair pairs ih =>
        intro entries h
        rcases ih _ h with hmem | ⟨later, hlater, heq⟩
        · rcases mem_alter hmem with hmem | ⟨_, heq⟩
          · exact .inl hmem
          · exact .inr ⟨pair, List.mem_cons_self, heq.symm⟩
        · exact .inr ⟨later, List.mem_cons_of_mem _ hlater, heq⟩
  exact (hfold [] h).resolve_left (by simp)

end Entries

end ShellPrompt
