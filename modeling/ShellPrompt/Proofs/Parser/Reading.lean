import Mathlib.Data.List.TakeWhile
import ShellPrompt.Parser.Basic

/-! # What parsers read

A parser that succeeds goes from one place in a text to a later one. The relation `Cursor.Reads`
names the characters in between, and for each way to build a parser a theorem says exactly when it
succeeds. -/

namespace ShellPrompt

namespace Cursor

/-- Reading `text` leads from one place to another. -/
def Reads (start : Cursor) (text : List Char) (stop : Cursor) : Prop :=
  start.rest = text ++ stop.rest ∧ stop.position = start.position + text.length

variable {start middle stop : Cursor} {first second : List Char}

theorem Reads.refl (start : Cursor) : start.Reads [] start := ⟨rfl, rfl⟩

theorem Reads.trans (h₁ : start.Reads first middle) (h₂ : middle.Reads second stop) :
    start.Reads (first ++ second) stop := by
  obtain ⟨hrest₁, hposition₁⟩ := h₁
  obtain ⟨hrest₂, hposition₂⟩ := h₂
  refine ⟨by rw [hrest₁, hrest₂, List.append_assoc], ?_⟩
  rw [hposition₂, hposition₁, List.length_append, Nat.add_assoc]

/-- Where a text begins with two parts, reading them one after another is reading both. -/
theorem Reads.split (h : start.Reads (first ++ second) stop) :
    ∃ middle, start.Reads first middle ∧ middle.Reads second stop := by
  obtain ⟨hrest, hposition⟩ := h
  refine ⟨⟨start.position + first.length, second ++ stop.rest⟩, ⟨?_, rfl⟩, rfl, ?_⟩
  · rw [hrest, List.append_assoc]
  · rw [hposition, List.length_append, Nat.add_assoc]

theorem Reads.split_cons {c : Char} (h : start.Reads (c :: second) stop) :
    ∃ middle, start.Reads [c] middle ∧ middle.Reads second stop := by
  rw [← List.singleton_append] at h
  exact h.split

theorem Reads.eq_advance (h : start.Reads first stop) : stop = start.advance first.length := by
  obtain ⟨hrest, hposition⟩ := h
  cases stop
  simp_all [advance]

/-- A place is known from what follows it. -/
theorem Reads.eq_advance_of_rest (h : start.Reads first stop)
    (hrest : start.rest = second ++ stop.rest) : stop = start.advance second.length := by
  have heq : first = second := List.append_cancel_right (h.1.symm.trans hrest)
  rw [← heq, ← h.eq_advance]

theorem reads_advance (h : start.rest = first ++ second) :
    start.Reads first (start.advance first.length) := by
  simp [Reads, h]

theorem Reads.length_le (h : start.Reads first stop) : stop.rest.length ≤ start.rest.length := by
  rw [h.1, List.length_append]
  omega

end Cursor

/-! ## Runs of characters -/

/-- A text that a run of characters does not go on into. -/
def Stops (test : Char → Bool) (text : List Char) : Prop := ∀ c ∈ text.head?, test c = false

theorem stops_nil (test : Char → Bool) : Stops test [] := by simp [Stops]

theorem stops_cons {test : Char → Bool} {c : Char} {text : List Char} :
    Stops test (c :: text) ↔ test c = false := by
  simp [Stops]

theorem stops_dropWhile (test : Char → Bool) (text : List Char) :
    Stops test (text.dropWhile test) := by
  induction text with
  | nil => exact stops_nil test
  | cons c text ih =>
      by_cases h : test c = true
      · rwa [List.dropWhile_cons_of_pos h]
      · rw [List.dropWhile_cons_of_neg h, stops_cons]
        simpa using h

/-- A run and what follows it can be told from the text alone. -/
theorem takeWhile_append_of_stops {test : Char → Bool} {run rest : List Char}
    (hrun : ∀ c ∈ run, test c = true) (hrest : Stops test rest) :
    (run ++ rest).takeWhile test = run := by
  rw [List.takeWhile_append_of_pos hrun]
  cases rest with
  | nil => simp
  | cons c rest => simp [stops_cons.mp hrest]

theorem dropWhile_append_of_stops {test : Char → Bool} {run rest : List Char}
    (hrun : ∀ c ∈ run, test c = true) (hrest : Stops test rest) :
    (run ++ rest).dropWhile test = rest := by
  rw [List.dropWhile_append_of_pos hrun]
  cases rest with
  | nil => simp
  | cons c rest => simp [stops_cons.mp hrest]

/-! ## When parsers succeed -/

namespace Parser

variable {α β : Type} {start stop : Cursor}

theorem tag_eq_some_iff {literal value : String} :
    tag literal start = some (value, stop) ↔ value = literal ∧ start.Reads literal.toList stop := by
  unfold tag
  constructor
  · intro h
    split at h
    · rename_i hprefix
      obtain ⟨rest, hrest⟩ := List.isPrefixOf_iff_prefix.mp hprefix
      obtain ⟨rfl, rfl⟩ := Prod.mk.inj (Option.some.inj h)
      exact ⟨rfl, Cursor.reads_advance hrest.symm⟩
    · cases h
  · rintro ⟨rfl, h⟩
    rw [if_pos (List.isPrefixOf_iff_prefix.mpr ⟨stop.rest, h.1.symm⟩), ← h.eq_advance]

/-- A text can be read where it stands. -/
theorem tag_of_rest {literal : String} {rest : List Char}
    (h : start.rest = literal.toList ++ rest) :
    ∃ stop, stop.rest = rest ∧ tag literal start = some (literal, stop) := by
  have hreads := Cursor.reads_advance h
  exact ⟨_, List.append_cancel_left (hreads.1.symm.trans h), tag_eq_some_iff.mpr ⟨rfl, hreads⟩⟩

theorem takeWhile_eq_some_iff {test : Char → Bool} {value : String} :
    takeWhile test start = some (value, stop) ↔
      start.Reads value.toList stop ∧ (∀ c ∈ value.toList, test c = true) ∧
        Stops test stop.rest := by
  unfold takeWhile
  constructor
  · intro h
    obtain ⟨rfl, rfl⟩ := Prod.mk.inj (Option.some.inj h)
    have hsplit := (List.takeWhile_append_dropWhile (p := test) (l := start.rest)).symm
    refine ⟨?_, ?_, ?_⟩
    · simpa using Cursor.reads_advance hsplit
    · simpa using fun c hc => List.mem_takeWhile_imp hc
    · have hdrop : start.rest.drop (start.rest.takeWhile test).length =
          start.rest.dropWhile test :=
        (congrArg (List.drop _) hsplit).trans List.drop_left
      rw [Cursor.advance_rest, hdrop]
      exact stops_dropWhile test start.rest
  · rintro ⟨hreads, hvalue, hstops⟩
    have hrun : start.rest.takeWhile test = value.toList := by
      rw [hreads.1, takeWhile_append_of_stops hvalue hstops]
    simp only [hrun, String.ofList_toList, ← hreads.eq_advance]

theorem verify_eq_some_iff {p : Parser α} {test : α → Bool} {value : α} :
    p.verify test start = some (value, stop) ↔
      p start = some (value, stop) ∧ test value = true := by
  unfold verify
  cases p start with
  | none => simp
  | some result =>
      obtain ⟨first, next⟩ := result
      by_cases h : test first = true
      · simp only [h, if_true, Option.some.injEq, Prod.mk.injEq]
        constructor
        · rintro ⟨rfl, rfl⟩
          exact ⟨⟨rfl, rfl⟩, h⟩
        · exact And.left
      · simp only [h, if_false, reduceCtorEq, Option.some.injEq, Prod.mk.injEq, false_iff]
        rintro ⟨⟨rfl, rfl⟩, htest⟩
        exact h htest

theorem takeWhile1_eq_some_iff {test : Char → Bool} {value : String} :
    takeWhile1 test start = some (value, stop) ↔
      value ≠ "" ∧ start.Reads value.toList stop ∧ (∀ c ∈ value.toList, test c = true) ∧
        Stops test stop.rest := by
  rw [takeWhile1, verify_eq_some_iff, takeWhile_eq_some_iff, decide_eq_true_iff, and_comm]

theorem map_eq_some_iff {f : α → β} {p : Parser α} {value : β} :
    p.map f start = some (value, stop) ↔
      ∃ first, p start = some (first, stop) ∧ f first = value := by
  unfold map
  constructor
  · intro h
    cases hp : p start with
    | none => simp [hp] at h
    | some result =>
        obtain ⟨first, next⟩ := result
        simp only [hp, Option.some.injEq, Prod.mk.injEq] at h
        obtain ⟨hvalue, rfl⟩ := h
        exact ⟨first, rfl, hvalue⟩
  · rintro ⟨first, hp, rfl⟩
    simp [hp]

theorem filterMap_eq_some_iff {f : α → Option β} {p : Parser α} {value : β} :
    p.filterMap f start = some (value, stop) ↔
      ∃ first, p start = some (first, stop) ∧ f first = some value := by
  unfold filterMap
  constructor
  · intro h
    cases hp : p start with
    | none => simp [hp] at h
    | some result =>
        obtain ⟨first, next⟩ := result
        simp only [hp, Option.map_eq_some_iff, Prod.mk.injEq] at h
        obtain ⟨_, hvalue, rfl, rfl⟩ := h
        exact ⟨first, rfl, hvalue⟩
  · rintro ⟨first, hp, hvalue⟩
    simp [hp, hvalue]

theorem both_eq_some_iff {p : Parser α} {q : Parser β} {first : α} {second : β} :
    both p q start = some ((first, second), stop) ↔
      ∃ middle, p start = some (first, middle) ∧ q middle = some (second, stop) := by
  unfold both
  constructor
  · intro h
    cases hp : p start with
    | none => simp [hp] at h
    | some result =>
        obtain ⟨value, next⟩ := result
        cases hq : q next with
        | none => simp [hp, hq] at h
        | some last =>
            simp only [hp, hq, Option.some.injEq, Prod.mk.injEq] at h
            obtain ⟨⟨rfl, rfl⟩, rfl⟩ := h
            exact ⟨next, rfl, hq⟩
  · rintro ⟨middle, hp, hq⟩
    simp [hp, hq]

theorem preceded_eq_some_iff {p : Parser α} {q : Parser β} {second : β} :
    preceded p q start = some (second, stop) ↔
      ∃ first middle, p start = some (first, middle) ∧ q middle = some (second, stop) := by
  rw [preceded, map_eq_some_iff]
  constructor
  · rintro ⟨⟨first, _⟩, h, rfl⟩
    exact ⟨first, both_eq_some_iff.mp h⟩
  · rintro ⟨first, h⟩
    exact ⟨(first, second), both_eq_some_iff.mpr h, rfl⟩

theorem terminated_eq_some_iff {p : Parser α} {q : Parser β} {first : α} :
    terminated p q start = some (first, stop) ↔
      ∃ middle second, p start = some (first, middle) ∧ q middle = some (second, stop) := by
  rw [terminated, map_eq_some_iff]
  constructor
  · rintro ⟨⟨_, second⟩, h, rfl⟩
    obtain ⟨middle, h⟩ := both_eq_some_iff.mp h
    exact ⟨middle, second, h⟩
  · rintro ⟨middle, second, h⟩
    exact ⟨(first, second), both_eq_some_iff.mpr ⟨middle, h⟩, rfl⟩

theorem firstOf_cons_of_some {p : Parser α} {ps : List (Parser α)} {result : α × Cursor}
    (h : p start = some result) : firstOf (p :: ps) start = some result := by
  simp [firstOf, h]

theorem firstOf_cons_of_none {p : Parser α} {ps : List (Parser α)} (h : p start = none) :
    firstOf (p :: ps) start = firstOf ps start := by
  simp [firstOf, h]

theorem firstOf_singleton {p : Parser α} : firstOf [p] start = p start := by
  cases h : p start with
  | some result => exact firstOf_cons_of_some h
  | none => exact firstOf_cons_of_none h

theorem optional_eq_some_iff {p : Parser α} {value : Option α} :
    p.optional start = some (value, stop) ↔
      (∃ first, p start = some (first, stop) ∧ value = some first) ∨
        (p start = none ∧ value = none ∧ stop = start) := by
  unfold optional
  cases hp : p start with
  | none => simp [eq_comm]
  | some result =>
      obtain ⟨first, next⟩ := result
      simp only [Option.some.injEq, Prod.mk.injEq, reduceCtorEq, false_and, or_false]
      constructor
      · rintro ⟨rfl, rfl⟩
        exact ⟨first, ⟨rfl, rfl⟩, rfl⟩
      · rintro ⟨_, ⟨rfl, rfl⟩, rfl⟩
        exact ⟨rfl, rfl⟩

/-! ## Repetition -/

/-- Reading again and again, until the parser fails or comes no further. -/
inductive Repeats (p : Parser α) : Cursor → List α → Cursor → Prop where
  | done {start : Cursor}
      (h : ∀ value next, p start = some (value, next) → start.rest.length ≤ next.rest.length) :
      Repeats p start [] start
  | more {start next stop : Cursor} {value : α} {values : List α}
      (h : p start = some (value, next)) (hnext : next.rest.length < start.rest.length) :
      Repeats p next values stop → Repeats p start (value :: values) stop

theorem repeats_repeatFrom (p : Parser α) (start : Cursor) :
    Repeats p start (repeatFrom p start).1 (repeatFrom p start).2 := by
  fun_induction repeatFrom p start with
  | case1 start value next h hnext values last hrest ih =>
      rw [hrest] at ih
      exact .more h hnext ih
  | case2 start value next h hnext =>
      apply Repeats.done
      intro other last hother
      obtain ⟨rfl, rfl⟩ := Prod.mk.inj (Option.some.inj (h.symm.trans hother))
      exact Nat.le_of_not_lt hnext
  | case3 start h =>
      apply Repeats.done
      intro other last hother
      cases h.symm.trans hother

theorem Repeats.eq {p : Parser α} {values : List α} (h : Repeats p start values stop) :
    repeatFrom p start = (values, stop) := by
  induction h with
  | @done start h =>
      rw [repeatFrom]
      cases hp : p start with
      | none => rfl
      | some result =>
          obtain ⟨value, next⟩ := result
          simp only [Nat.not_lt.mpr (h value next hp), if_false]
  | more h hnext _ ih =>
      rw [repeatFrom]
      simp only [h, hnext, if_true, ih]

/-- Repetition is the relation `Repeats`. -/
theorem repeatFrom_eq_iff {p : Parser α} {values : List α} :
    repeatFrom p start = (values, stop) ↔ Repeats p start values stop := by
  refine ⟨?_, Repeats.eq⟩
  intro h
  simpa only [h] using repeats_repeatFrom p start

theorem many_eq_some_iff {p : Parser α} {values : List α} :
    p.many start = some (values, stop) ↔ Repeats p start values stop := by
  rw [many, Option.some.injEq, repeatFrom_eq_iff]

theorem many1_eq_some_iff {p : Parser α} {values : List α} :
    p.many1 start = some (values, stop) ↔ Repeats p start values stop ∧ values ≠ [] := by
  rw [many1, verify_eq_some_iff, many_eq_some_iff]
  simp

theorem Repeats.length_le {p : Parser α} {values : List α} (h : Repeats p start values stop) :
    stop.rest.length ≤ start.rest.length := by
  induction h with
  | done => exact le_rfl
  | more _ hnext _ ih => omega

/-- Where repetition stops, the parser fails or comes no further. -/
theorem Repeats.stopped {p : Parser α} {values : List α} (h : Repeats p start values stop) :
    ∀ value next, p stop = some (value, next) → stop.rest.length ≤ next.rest.length := by
  induction h with
  | done h => exact h
  | more _ _ _ ih => exact ih

/-- Repetition looks only at places that are not before its start. -/
theorem Repeats.congr {p q : Parser α} {values : List α} (h : Repeats p start values stop)
    (hpq : ∀ place : Cursor, place.rest.length ≤ start.rest.length → p place = q place) :
    Repeats q start values stop := by
  induction h with
  | @done start h =>
      apply Repeats.done
      rw [← hpq start le_rfl]
      exact h
  | @more start next stop value values h hnext _ ih =>
      refine .more (hpq start le_rfl ▸ h) hnext (ih ?_)
      intro place hplace
      exact hpq place (by omega)

theorem many1_congr {p q : Parser α} (hpq : ∀ place : Cursor,
    place.rest.length ≤ start.rest.length → p place = q place) :
    p.many1 start = q.many1 start := by
  have h := ((repeats_repeatFrom p start).congr hpq).eq
  simp only [many1, many, verify, h]

end Parser

end ShellPrompt
