import ShellPrompt.Proofs.Parser.Suffix

/-! # How parsers are built

A construction says how a parser is built from others, one of which may be the parser that is being
defined. What it runs is given by rules: repetition goes on until its parser fails or stops where it
started, and a parser that is being defined runs its definition. The rules do not say that a run
ends. -/

namespace ShellPrompt.Parser

/-- A parser of values of a type, built from others. The parser that is being defined, which `self`
stands for, reads values of the type `τ`. -/
inductive Construction (τ : Type) : Type → Type 1 where
  | tag (literal : String) : Construction τ String
  | takeWhile (test : Char → Bool) : Construction τ String
  | never {α : Type} : Construction τ α
  | orElse {α : Type} (p q : Construction τ α) : Construction τ α
  | nothing {α : Type} : Construction τ (List α)
  | both {α β : Type} (p : Construction τ α) (q : Construction τ β) : Construction τ (α × β)
  | many {α : Type} (p : Construction τ α) : Construction τ (List α)
  | optional {α : Type} (p : Construction τ α) : Construction τ (Option α)
  | map {α β : Type} (f : α → β) (p : Construction τ α) : Construction τ β
  | filterMap {α β : Type} (f : α → Option β) (p : Construction τ α) : Construction τ β
  | verify {α : Type} (p : Construction τ α) (test : α → Bool) : Construction τ α
  | self : Construction τ τ

namespace Construction

variable {τ α β : Type}

/-- The parser that is built, where `s` is the parser that is being defined. -/
def parser (s : Parser τ) : {α : Type} → Construction τ α → Parser α
  | _, tag literal => Parser.tag literal
  | _, takeWhile test => Parser.takeWhile test
  | _, never => Parser.firstOf []
  | _, orElse p q => Parser.firstOf [p.parser s, q.parser s]
  | _, nothing => Parser.all []
  | _, both p q => Parser.both (p.parser s) (q.parser s)
  | _, many p => Parser.many (p.parser s)
  | _, optional p => Parser.optional (p.parser s)
  | _, map f p => Parser.map f (p.parser s)
  | _, filterMap f p => Parser.filterMap f (p.parser s)
  | _, verify p test => Parser.verify (p.parser s) test
  | _, self => s

/-! ### The other ways to build a parser -/

def takeWhile1 (test : Char → Bool) : Construction τ String := (takeWhile test).verify (· ≠ "")

def noneOf (chars : List Char) : Construction τ String := takeWhile1 fun c => !chars.contains c

def many1 (p : Construction τ α) : Construction τ (List α) :=
  (many p).verify fun values => !values.isEmpty

def preceded (p : Construction τ α) (q : Construction τ β) : Construction τ β :=
  (both p q).map Prod.snd

def terminated (p : Construction τ α) (q : Construction τ β) : Construction τ α :=
  (both p q).map Prod.fst

def firstOf : List (Construction τ α) → Construction τ α
  | [] => never
  | p :: ps => orElse p (firstOf ps)

def all : List (Construction τ α) → Construction τ (List α)
  | [] => nothing
  | p :: ps => (both p (all ps)).map fun (value, values) => value :: values

section

variable {s : Parser τ}

theorem parser_firstOf (ps : List (Construction τ α)) :
    (firstOf ps).parser s = Parser.firstOf (ps.map (parser s)) := by
  induction ps with
  | nil => rfl
  | cons p ps ih =>
      funext start
      rw [firstOf, parser, ih, List.map_cons]
      cases h : p.parser s start with
      | some result => rw [firstOf_cons_of_some h, firstOf_cons_of_some h]
      | none => rw [firstOf_cons_of_none h, firstOf_cons_of_none h, firstOf_singleton]

theorem parser_all (ps : List (Construction τ α)) :
    (all ps).parser s = Parser.all (ps.map (parser s)) := by
  induction ps with
  | nil => rfl
  | cons p ps ih => rw [all, parser, parser, ih]; rfl

end

/-- The run of a construction from a place, where `body` is the definition of the parser that is
being defined. -/
inductive Runs (body : Construction τ τ) :
    {α : Type} → Construction τ α → Cursor → Option (α × Cursor) → Prop where
  | tag (literal : String) (start : Cursor) :
      Runs body (.tag literal) start (Parser.tag literal start)
  | takeWhile (test : Char → Bool) (start : Cursor) :
      Runs body (.takeWhile test) start (Parser.takeWhile test start)
  | never {α : Type} (start : Cursor) : Runs body (.never : Construction τ α) start none
  | first {α : Type} {p q : Construction τ α} {start : Cursor} {result : α × Cursor} :
      Runs body p start (some result) → Runs body (.orElse p q) start (some result)
  | second {α : Type} {p q : Construction τ α} {start : Cursor} {result : Option (α × Cursor)} :
      Runs body p start none → Runs body q start result → Runs body (.orElse p q) start result
  | nothing {α : Type} (start : Cursor) :
      Runs body (.nothing : Construction τ (List α)) start (some ([], start))
  | bothFirstFails {α β : Type} {p : Construction τ α} {q : Construction τ β} {start : Cursor} :
      Runs body p start none → Runs body (.both p q) start none
  | bothSecondFails {α β : Type} {p : Construction τ α} {q : Construction τ β}
      {start middle : Cursor} {value : α} :
      Runs body p start (some (value, middle)) → Runs body q middle none →
      Runs body (.both p q) start none
  | both {α β : Type} {p : Construction τ α} {q : Construction τ β} {start middle stop : Cursor}
      {first : α} {second : β} :
      Runs body p start (some (first, middle)) → Runs body q middle (some (second, stop)) →
      Runs body (.both p q) start (some ((first, second), stop))
  | manyFails {α : Type} {p : Construction τ α} {start : Cursor} :
      Runs body p start none → Runs body (.many p) start (some ([], start))
  | manyIdles {α : Type} {p : Construction τ α} {start next : Cursor} {value : α}
      (hnext : next.position = start.position) :
      Runs body p start (some (value, next)) → Runs body (.many p) start (some ([], start))
  | manyGoesOn {α : Type} {p : Construction τ α} {start next stop : Cursor} {value : α}
      {values : List α} (hnext : next.position ≠ start.position) :
      Runs body p start (some (value, next)) → Runs body (.many p) next (some (values, stop)) →
      Runs body (.many p) start (some (value :: values, stop))
  | optionalFails {α : Type} {p : Construction τ α} {start : Cursor} :
      Runs body p start none → Runs body (.optional p) start (some (none, start))
  | optional {α : Type} {p : Construction τ α} {start stop : Cursor} {value : α} :
      Runs body p start (some (value, stop)) →
      Runs body (.optional p) start (some (some value, stop))
  | map {α β : Type} (f : α → β) {p : Construction τ α} {start : Cursor}
      {result : Option (α × Cursor)} :
      Runs body p start result →
      Runs body (.map f p) start (result.map fun (value, stop) => (f value, stop))
  | filterMap {α β : Type} (f : α → Option β) {p : Construction τ α} {start : Cursor}
      {result : Option (α × Cursor)} :
      Runs body p start result →
      Runs body (.filterMap f p) start
        (result.bind fun (value, stop) => (f value).map fun image => (image, stop))
  | verify {α : Type} {p : Construction τ α} (test : α → Bool) {start : Cursor}
      {result : Option (α × Cursor)} :
      Runs body p start result →
      Runs body (.verify p test) start (result.filter fun (value, _) => test value)
  | self {start : Cursor} {result : Option (τ × Cursor)} :
      Runs body body start result → Runs body .self start result

/-! ## Runs and parsers -/

section

variable {s : Parser τ}

theorem advances_construction (hs : Advances s) (e : Construction τ α) : Advances (e.parser s) := by
  induction e with
  | tag literal => exact advances_tag literal
  | takeWhile test => exact advances_takeWhile test
  | never => exact advances_firstOf (by simp)
  | orElse p q hp hq => exact advances_firstOf (by simp [hp, hq])
  | nothing => exact fun start _ _ h => by cases h; exact ⟨[], .refl start⟩
  | both p q hp hq => exact hp.both hq
  | many p hp => exact hp.many
  | optional p hp => exact hp.optional
  | map f p hp => exact hp.map f
  | filterMap f p hp => exact hp.filterMap f
  | verify p test hp => exact hp.verify test
  | self => exact hs

theorem local_construction (hs : Local s) (e : Construction τ α) : Local (e.parser s) := by
  induction e with
  | tag literal => exact local_tag literal
  | takeWhile test => exact local_takeWhile test
  | never => exact local_firstOf (by simp)
  | orElse p q hp hq => exact local_firstOf (by simp [hp, hq])
  | nothing => exact fun start offset => rfl
  | both p q hp hq => exact hp.both hq
  | many p hp => exact hp.many
  | optional p hp => exact hp.optional
  | map f p hp => exact hp.map f
  | filterMap f p hp => exact hp.filterMap f
  | verify p test hp => exact hp.verify test
  | self => exact hs

/-- A parser that goes forward stays where it is exactly if it does not shorten what follows. -/
theorem position_eq_iff {p : Parser α} (hp : Advances p) {start stop : Cursor} {value : α}
    (h : p start = some (value, stop)) :
    stop.position = start.position ↔ start.rest.length ≤ stop.rest.length := by
  obtain ⟨text, hrest, hposition⟩ := hp start value stop h
  rw [hrest, hposition, List.length_append]
  omega

/-- A run comes to what the parser yields, if the parser that is being defined is as its definition
says. -/
theorem Runs.execution {body : Construction τ τ} {e : Construction τ α} {start : Cursor}
    {result : Option (α × Cursor)} (hs : Advances s)
    (hbody : ∀ place, s place = body.parser s place) (h : Runs body e start result) :
    e.parser s start = result := by
  induction h with
  | tag literal start => rfl
  | takeWhile test start => rfl
  | never start => rfl
  | first _ ih => exact firstOf_cons_of_some ih
  | second _ _ ihp ihq => rw [parser, firstOf_cons_of_none ihp, firstOf_singleton, ihq]
  | nothing start => rfl
  | bothFirstFails _ ih => simp only [parser, Parser.both, ih]
  | bothSecondFails _ _ ihp ihq => simp only [parser, Parser.both, ihp, ihq]
  | both _ _ ihp ihq => exact both_eq_some_iff.mpr ⟨_, ihp, ihq⟩
  | manyFails _ ih =>
      refine many_eq_some_iff.mpr (.done fun value next h => ?_)
      cases ih.symm.trans h
  | @manyIdles _ p start next value hnext _ ih =>
      refine many_eq_some_iff.mpr (.done fun other last h => ?_)
      cases ih.symm.trans h
      exact (position_eq_iff (advances_construction hs p) ih).mp hnext
  | @manyGoesOn _ p start next stop value values hnext _ _ ihp ihq =>
      have hlt : next.rest.length < start.rest.length := Nat.lt_of_not_le
        (mt (position_eq_iff (advances_construction hs p) ihp).mpr hnext)
      exact many_eq_some_iff.mpr (.more ihp hlt (many_eq_some_iff.mp ihq))
  | optionalFails _ ih => simp only [parser, Parser.optional, ih]
  | optional _ ih => simp only [parser, Parser.optional, ih]
  | map f _ ih => rw [parser, map_eq, ih]
  | filterMap f _ ih => rw [parser, filterMap_eq, ih]
  | verify test _ ih => rw [parser, verify_eq, ih]
  | self _ ih => rw [parser, hbody, ih]

/-! ## Runs that end -/

/-- A parser that reads at least one character where it succeeds. -/
def Consumes (p : Parser α) : Prop :=
  ∀ start value stop, p start = some (value, stop) → stop.rest.length < start.rest.length

/-- A construction that does not run the parser that is being defined before it has read
something. -/
def Guarded (s : Parser τ) : {α : Type} → Construction τ α → Prop
  | _, tag _ => True
  | _, takeWhile _ => True
  | _, never => True
  | _, orElse p q => p.Guarded s ∧ q.Guarded s
  | _, nothing => True
  | _, both p q => p.Guarded s ∧ (q.Guarded s ∨ Consumes (p.parser s))
  | _, many p => p.Guarded s
  | _, optional p => p.Guarded s
  | _, map _ p => p.Guarded s
  | _, filterMap _ p => p.Guarded s
  | _, verify p _ => p.Guarded s
  | _, self => False

section

variable {p : Construction τ α} {q : Construction τ β}

theorem Guarded.both (hp : p.Guarded s) (hq : q.Guarded s) : (both p q).Guarded s := ⟨hp, .inl hq⟩

theorem Guarded.preceded (hp : p.Guarded s) (hq : q.Guarded s) : (preceded p q).Guarded s :=
  hp.both hq

theorem Guarded.terminated (hp : p.Guarded s) (hq : q.Guarded s) : (terminated p q).Guarded s :=
  hp.both hq

end

section

variable {body : Construction τ τ} {bound : Nat}

theorem runs_orElse {p q : Construction τ α} {start : Cursor}
    (hp : Runs body p start (p.parser s start)) (hq : Runs body q start (q.parser s start)) :
    Runs body (.orElse p q) start ((orElse p q).parser s start) := by
  rw [parser]
  cases h : p.parser s start with
  | some result =>
      rw [firstOf_cons_of_some h]
      exact .first (h ▸ hp)
  | none =>
      rw [firstOf_cons_of_none h, firstOf_singleton]
      exact .second (h ▸ hp) hq

theorem runs_both {p : Construction τ α} {q : Construction τ β} {start : Cursor}
    (hp : Runs body p start (p.parser s start))
    (hq : ∀ value middle, p.parser s start = some (value, middle) →
      Runs body q middle (q.parser s middle)) :
    Runs body (.both p q) start ((both p q).parser s start) := by
  rw [parser, Parser.both]
  cases h : p.parser s start with
  | none => exact .bothFirstFails (h ▸ hp)
  | some result =>
      obtain ⟨first, middle⟩ := result
      rw [h] at hp
      have hsecond := hq first middle h
      dsimp only
      cases h : q.parser s middle with
      | none => exact .bothSecondFails hp (h ▸ hsecond)
      | some result =>
          rw [h] at hsecond
          exact .both hp hsecond

theorem runs_optional {p : Construction τ α} {start : Cursor}
    (hp : Runs body p start (p.parser s start)) :
    Runs body (.optional p) start ((optional p).parser s start) := by
  rw [parser, Parser.optional]
  cases h : p.parser s start with
  | none => exact .optionalFails (h ▸ hp)
  | some result =>
      rw [h] at hp
      exact .optional hp

/-- Repetition ends if each of its rounds does, because the text gets shorter. -/
theorem runs_many {p : Construction τ α} (hp : Advances (p.parser s)) (start : Cursor)
    (hrun : ∀ place : Cursor, place.rest.length ≤ start.rest.length →
      Runs body p place (p.parser s place)) :
    Runs body (.many p) start (some (repeatFrom (p.parser s) start)) := by
  fun_induction repeatFrom (p.parser s) start with
  | case1 start value next h hnext values last hrest ih =>
      have hfirst := hrun start le_rfl
      rw [h] at hfirst
      rw [hrest] at ih
      refine .manyGoesOn (mt (position_eq_iff hp h).mp (Nat.not_le.mpr hnext)) hfirst (ih ?_)
      exact fun place hplace => hrun place (by omega)
  | case2 start value next h hnext =>
      have hfirst := hrun start le_rfl
      rw [h] at hfirst
      exact .manyIdles ((position_eq_iff hp h).mpr (Nat.not_lt.mp hnext)) hfirst
  | case3 start h =>
      have hfirst := hrun start le_rfl
      rw [h] at hfirst
      exact .manyFails hfirst

/-- A run from a place ends if those of the parser that is being defined end at all later places and
the construction does not run it at this one. -/
theorem runs_of_guarded (hs : Advances s)
    (hself : ∀ place : Cursor, place.rest.length < bound → Runs body .self place (s place))
    (e : Construction τ α) (start : Cursor) (hstart : start.rest.length ≤ bound)
    (hguard : start.rest.length < bound ∨ e.Guarded s) :
    Runs body e start (e.parser s start) := by
  induction e generalizing start with
  | tag literal => exact .tag literal start
  | takeWhile test => exact .takeWhile test start
  | never => exact .never start
  | orElse p q hp hq =>
      exact runs_orElse (hp start hstart (hguard.imp_right And.left))
        (hq start hstart (hguard.imp_right And.right))
  | nothing => exact .nothing start
  | both p q hp hq =>
      refine runs_both (hp start hstart (hguard.imp_right And.left)) fun value middle h => ?_
      obtain ⟨text, hreads⟩ := advances_construction hs p start value middle h
      have hmiddle := hreads.length_le
      apply hq middle (hmiddle.trans hstart)
      rcases hguard with hlt | ⟨_, hsecond | hconsumes⟩
      · exact .inl (hmiddle.trans_lt hlt)
      · exact .inr hsecond
      · exact .inl ((hconsumes start value middle h).trans_le hstart)
  | many p hp =>
      refine runs_many (advances_construction hs p) start fun place hplace => ?_
      exact hp place (hplace.trans hstart) (hguard.imp_left hplace.trans_lt)
  | optional p hp => exact runs_optional (hp start hstart hguard)
  | map f p hp =>
      rw [parser, map_eq]
      exact .map f (hp start hstart hguard)
  | filterMap f p hp =>
      rw [parser, filterMap_eq]
      exact .filterMap f (hp start hstart hguard)
  | verify p test hp =>
      rw [parser, verify_eq]
      exact .verify test (hp start hstart hguard)
  | self => exact hself start (hguard.resolve_right id)

/-- If a definition does not run itself before it has read something, every run ends, and in what
the parser yields. -/
theorem runs_iff (hs : Advances s) (hbody : ∀ place, s place = body.parser s place)
    (hguarded : body.Guarded s) (e : Construction τ α) (start : Cursor)
    (result : Option (α × Cursor)) : Runs body e start result ↔ e.parser s start = result := by
  refine ⟨Runs.execution hs hbody, ?_⟩
  rintro rfl
  -- A run of the definition runs it again only where less follows, so the length bounds the depth.
  have hself : ∀ bound, ∀ place : Cursor, place.rest.length < bound →
      Runs body .self place (s place) := by
    intro bound
    induction bound with
    | zero => exact fun place hplace => absurd hplace (Nat.not_lt_zero _)
    | succ bound ih =>
        intro place hplace
        have hrun := runs_of_guarded hs ih body place (Nat.le_of_lt_succ hplace) (.inr hguarded)
        rw [← hbody] at hrun
        exact .self hrun
  exact runs_of_guarded hs (hself (start.rest.length + 1)) e start (Nat.le_succ _)
    (.inl (Nat.lt_succ_self _))

end

end

end Construction

end ShellPrompt.Parser
