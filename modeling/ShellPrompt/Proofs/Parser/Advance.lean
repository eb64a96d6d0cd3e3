import ShellPrompt.Proofs.Parser.Reading

/-! # Parsers go forward

What a parser reads stands between the place where it starts and the one where it stops. Each way to
build a parser keeps this. -/

namespace ShellPrompt.Parser

variable {α β : Type}

/-- The parser stops behind what it has read. -/
def Advances (p : Parser α) : Prop :=
  ∀ start value stop, p start = some (value, stop) → ∃ text, start.Reads text stop

theorem advances_tag (literal : String) : Advances (tag literal) := by
  intro start value stop h
  exact ⟨_, (tag_eq_some_iff.mp h).2⟩

theorem advances_takeWhile (test : Char → Bool) : Advances (takeWhile test) := by
  intro start value stop h
  exact ⟨_, (takeWhile_eq_some_iff.mp h).1⟩

section

variable {p : Parser α} {q : Parser β}

theorem Advances.verify (hp : Advances p) (test : α → Bool) : Advances (p.verify test) := by
  intro start value stop h
  exact hp start value stop (verify_eq_some_iff.mp h).1

theorem advances_takeWhile1 (test : Char → Bool) : Advances (takeWhile1 test) :=
  (advances_takeWhile test).verify _

theorem Advances.map (hp : Advances p) (f : α → β) : Advances (p.map f) := by
  intro start value stop h
  obtain ⟨first, hfirst, _⟩ := map_eq_some_iff.mp h
  exact hp start first stop hfirst

theorem Advances.filterMap (hp : Advances p) (f : α → Option β) : Advances (p.filterMap f) := by
  intro start value stop h
  obtain ⟨first, hfirst, _⟩ := filterMap_eq_some_iff.mp h
  exact hp start first stop hfirst

theorem Advances.both (hp : Advances p) (hq : Advances q) : Advances (both p q) := by
  rintro start ⟨first, second⟩ stop h
  obtain ⟨middle, hfirst, hsecond⟩ := both_eq_some_iff.mp h
  obtain ⟨text, hreads⟩ := hp start first middle hfirst
  obtain ⟨text', hreads'⟩ := hq middle second stop hsecond
  exact ⟨text ++ text', hreads.trans hreads'⟩

theorem Advances.preceded (hp : Advances p) (hq : Advances q) : Advances (preceded p q) :=
  (hp.both hq).map _

theorem Advances.terminated (hp : Advances p) (hq : Advances q) : Advances (terminated p q) :=
  (hp.both hq).map _

theorem Advances.optional (hp : Advances p) : Advances p.optional := by
  intro start value stop h
  rcases optional_eq_some_iff.mp h with ⟨first, hfirst, _⟩ | ⟨_, _, rfl⟩
  · exact hp start first stop hfirst
  · exact ⟨[], .refl stop⟩

theorem Repeats.reads (hp : Advances p) {start stop : Cursor} {values : List α}
    (h : Repeats p start values stop) : ∃ text, start.Reads text stop := by
  induction h with
  | @done start _ => exact ⟨[], .refl start⟩
  | more h _ _ ih =>
      obtain ⟨text, hreads⟩ := hp _ _ _ h
      obtain ⟨text', hreads'⟩ := ih
      exact ⟨text ++ text', hreads.trans hreads'⟩

theorem Advances.many (hp : Advances p) : Advances p.many := by
  intro start values stop h
  exact (many_eq_some_iff.mp h).reads hp

theorem Advances.many1 (hp : Advances p) : Advances p.many1 := hp.many.verify _

end

theorem advances_firstOf {ps : List (Parser α)} (h : ∀ p ∈ ps, Advances p) :
    Advances (firstOf ps) := by
  induction ps with
  | nil =>
      intro start value stop hread
      cases hread
  | cons p ps ih =>
      obtain ⟨hp, hps⟩ := List.forall_mem_cons.mp h
      intro start value stop hread
      cases hfirst : p start with
      | some result =>
          rw [firstOf_cons_of_some hfirst] at hread
          exact hp start value stop (hfirst.trans hread)
      | none =>
          rw [firstOf_cons_of_none hfirst] at hread
          exact ih hps start value stop hread

end ShellPrompt.Parser
