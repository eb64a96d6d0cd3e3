import ShellPrompt.Proofs.Parser.Advance

/-! # What is in front of a place

A parser does not look at what stands in front of the place where it starts: where a text has more
characters in front, the outcome is the same, and the place where the parser stops is so much
further on. Each way to build a parser keeps this. -/

namespace ShellPrompt

namespace Cursor

/-- The same place where a text has more characters in front of it. -/
def shift (cursor : Cursor) (offset : Nat) : Cursor :=
  { cursor with position := cursor.position + offset }

@[simp] theorem shift_rest (cursor : Cursor) (offset : Nat) :
    (cursor.shift offset).rest = cursor.rest := rfl

theorem shift_advance (cursor : Cursor) (offset count : Nat) :
    (cursor.shift offset).advance count = (cursor.advance count).shift offset := by
  simp [shift, advance, Nat.add_right_comm]

theorem ofText_eq_shift (text : List Char) (start : Nat) :
    ofText text start = (ofText (text.drop start) 0).shift start := by
  simp [ofText, shift]

end Cursor

namespace Parser

variable {α β : Type}

theorem map_eq (f : α → β) (p : Parser α) (start : Cursor) :
    p.map f start = (p start).map fun (value, stop) => (f value, stop) := by
  unfold Parser.map
  cases p start <;> rfl

theorem filterMap_eq (f : α → Option β) (p : Parser α) (start : Cursor) :
    p.filterMap f start =
      (p start).bind fun (value, stop) => (f value).map fun image => (image, stop) := by
  unfold Parser.filterMap
  cases p start <;> rfl

theorem verify_eq (p : Parser α) (test : α → Bool) (start : Cursor) :
    p.verify test start = (p start).filter fun (value, _) => test value := by
  unfold Parser.verify
  cases p start with
  | none => rfl
  | some result => rw [Option.filter_some]

/-- The parser does not look at what is in front of it. -/
def Local (p : Parser α) : Prop :=
  ∀ (start : Cursor) (offset : Nat),
    p (start.shift offset) = (p start).map fun (value, stop) => (value, stop.shift offset)

theorem local_tag (literal : String) : Local (tag literal) := by
  intro start offset
  unfold tag
  split <;> simp_all [Cursor.shift_advance]

theorem local_takeWhile (test : Char → Bool) : Local (takeWhile test) := by
  intro start offset
  simp [takeWhile, Cursor.shift_advance]

theorem local_firstOf {ps : List (Parser α)} (h : ∀ p ∈ ps, Local p) : Local (firstOf ps) := by
  intro start offset
  induction ps with
  | nil => rfl
  | cons p ps ih =>
      obtain ⟨hp, hps⟩ := List.forall_mem_cons.mp h
      have hshift := hp start offset
      cases hfirst : p start with
      | some result =>
          rw [hfirst] at hshift
          rw [firstOf_cons_of_some hfirst, firstOf_cons_of_some hshift]
          rfl
      | none =>
          rw [hfirst] at hshift
          rw [firstOf_cons_of_none hfirst, firstOf_cons_of_none hshift, ih hps]

section

variable {p : Parser α} {q : Parser β}

theorem Local.map (hp : Local p) (f : α → β) : Local (p.map f) := by
  intro start offset
  rw [map_eq, map_eq, hp start offset, Option.map_map, Option.map_map]
  rfl

theorem Local.filterMap (hp : Local p) (f : α → Option β) : Local (p.filterMap f) := by
  intro start offset
  rw [filterMap_eq, filterMap_eq, hp start offset]
  cases p start with
  | none => rfl
  | some result => cases h : f result.1 <;> simp [h]

theorem Local.verify (hp : Local p) (test : α → Bool) : Local (p.verify test) := by
  intro start offset
  rw [verify_eq, verify_eq, hp start offset]
  cases p start with
  | none => rfl
  | some result => cases h : test result.1 <;> simp [Option.filter_some, h]

theorem Local.both (hp : Local p) (hq : Local q) : Local (both p q) := by
  intro start offset
  rw [Parser.both, Parser.both, hp start offset]
  cases p start with
  | none => rfl
  | some result =>
      simp only [Option.map_some, hq result.2 offset]
      cases q result.2 <;> rfl

theorem Local.optional (hp : Local p) : Local p.optional := by
  intro start offset
  rw [Parser.optional, Parser.optional, hp start offset]
  cases p start <;> rfl

theorem Local.repeatFrom_shift (hp : Local p) (start : Cursor) (offset : Nat) :
    repeatFrom p (start.shift offset) =
      ((repeatFrom p start).1, (repeatFrom p start).2.shift offset) := by
  fun_induction repeatFrom p start with
  | case1 start value next h hnext values last hrest ih =>
      rw [hrest] at ih
      rw [repeatFrom, hp start offset, h]
      simp only [Option.map_some, Cursor.shift_rest, hnext, if_true, ih]
  | case2 start value next h hnext =>
      rw [repeatFrom, hp start offset, h]
      simp only [Option.map_some, Cursor.shift_rest, hnext, if_false]
  | case3 start h =>
      rw [repeatFrom, hp start offset, h]
      rfl

theorem Local.many (hp : Local p) : Local p.many := by
  intro start offset
  rw [Parser.many, Parser.many, hp.repeatFrom_shift start offset]
  rfl

end

/-! ## Places in a text -/

section

variable {p : Parser α} {text : List Char} {start : Nat}

/-- A parser stops in the text that it reads, and not before it starts. -/
theorem Advances.within (hp : Advances p) (hstart : start ≤ text.length) {value : α}
    {next : Cursor} (h : p (.ofText text start) = some (value, next)) :
    ∃ stop, start ≤ stop ∧ stop ≤ text.length ∧ next = .ofText text stop := by
  obtain ⟨passed, hreads⟩ := hp _ _ _ h
  have hlength := congrArg List.length hreads.1
  simp only [Cursor.ofText, List.length_drop, List.length_append] at hlength
  refine ⟨start + passed.length, Nat.le_add_right _ _, by omega, ?_⟩
  rw [hreads.eq_advance, Cursor.ofText_advance]

theorem Local.ofText (hp : Local p) (text : List Char) (start : Nat) :
    p (.ofText text start) =
      (p (.ofText (text.drop start) 0)).map fun (value, stop) => (value, stop.shift start) := by
  rw [Cursor.ofText_eq_shift, hp]

end

end Parser

end ShellPrompt
