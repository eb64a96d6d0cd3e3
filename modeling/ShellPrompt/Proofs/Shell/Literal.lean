import ShellPrompt.Proofs.Shell.Units
import ShellPrompt.Proofs.Style.Sequence

/-! # Escaped text inside a prompt

Escaped text is made of whole units that show the text. A shell reads it in these units, and so
literally, exactly if the prompt in front of it ends with a whole unit. -/

namespace ShellPrompt.Shell

variable {shell : Shell}

/-! ## Escaping, character by character -/

/-- The unit that shows a character. -/
def unitOf : Shell → Char → List Char
  | bash, c => if c = '\\' ∨ c = '$' ∨ c = '\x60' then ['\\', c] else [c]
  | zsh, c => if c = '%' then ['%', '%'] else [c]

theorem toList_escape (shell : Shell) (text : String) :
    (shell.escape text).toList = text.toList.flatMap shell.unitOf := by
  cases shell with
  | zsh =>
      rw [escape, String.toList_ofList, replaceChar]
      rfl
  | bash =>
      rw [escape, String.toList_ofList]
      simp only [replaceChar, List.flatMap_assoc]
      refine List.flatMap_congr fun c _ => ?_
      by_cases hslash : c = '\\'
      · subst hslash
        decide
      · by_cases hdollar : c = '$'
        · subst hdollar
          decide
        · by_cases htick : c = '\x60'
          · subst htick
            decide
          · simp [unitOf, hslash, hdollar, htick]

theorem shown?_unitOf (shell : Shell) (c : Char) : shell.shown? (shell.unitOf c) = some c := by
  cases shell with
  | bash =>
      by_cases h : c = '\\' ∨ c = '$' ∨ c = '\x60'
      · rw [unitOf, if_pos h, shown?]
      · rw [unitOf, if_neg h, shown?, if_neg fun hexpands => h (.inr hexpands)]
  | zsh =>
      by_cases h : c = '%'
      · rw [unitOf, if_pos h, shown?, if_pos rfl, h]
      · rw [unitOf, if_neg h, shown?, if_neg h]

/-- A character is shown with a mark in front of it, or alone if it is no mark. -/
theorem unitOf_cases (shell : Shell) (c : Char) :
    shell.unitOf c = [shell.mark, c] ∨ shell.unitOf c = [c] ∧ c ≠ shell.mark := by
  cases shell with
  | bash =>
      by_cases h : c = '\\' ∨ c = '$' ∨ c = '\x60'
      · exact .inl (if_pos h)
      · exact .inr ⟨if_neg h, fun hmark => h (.inl hmark)⟩
  | zsh =>
      by_cases h : c = '%'
      · subst h
        exact .inl rfl
      · exact .inr ⟨if_neg h, h⟩

section

variable {α : Type} {char : α → Char} {place : Char → α}

theorem units_unitOf (hplace : ∀ c, char (place c) = c) (c : Char) (rest : List α) :
    units shell char ((shell.unitOf c).map place ++ rest) =
      (shell.unitOf c).map place :: units shell char rest := by
  rcases unitOf_cases shell c with hunit | ⟨hunit, hc⟩
  · simp [hunit, units, hplace]
  · cases rest with
    | nil => simp [hunit, units]
    | cons d rest => simp [hunit, units, hplace, hc]

/-- Escaped text is read in the units that show its characters, whatever follows. -/
theorem units_escape (hplace : ∀ c, char (place c) = c) (text : List Char) (rest : List α) :
    units shell char ((text.flatMap shell.unitOf).map place ++ rest) =
      text.map (fun c => (shell.unitOf c).map place) ++ units shell char rest := by
  induction text with
  | nil => rfl
  | cons c text ih =>
      rw [List.flatMap_cons, List.map_append, List.append_assoc, units_unitOf hplace, ih]
      rfl

end

theorem settled_escape (shell : Shell) (text : String) :
    settled shell (shell.escape text).toList = true := by
  rw [toList_escape]
  induction text.toList with
  | nil => rfl
  | cons c rest ih =>
      rw [List.flatMap_cons]
      rcases unitOf_cases shell c with hunit | ⟨hunit, hc⟩
      · rw [hunit, List.cons_append, List.singleton_append, settled_cons_mark rfl, ih]
      · rw [hunit, List.singleton_append, settled_cons hc, ih]

/-- Escape sequences of the terminal are marked in whole units. -/
theorem settled_wrap {code : String} (h : IsCode code) :
    settled shell (shell.wrap code).toList = true := by
  have hmark : shell.mark ∉ code.toList := by
    intro hmem
    have hcode := h _ hmem
    cases shell <;> exact absurd hcode (by decide)
  unfold wrap
  split
  · rfl
  · cases shell with
    | bash =>
        rw [String.toList_append, String.toList_append, List.append_assoc,
          settled_append (by decide), settled_append (settled_of_notMem hmark)]
        decide
    | zsh =>
        rw [String.toList_append, String.toList_append, List.append_assoc,
          settled_append (by decide), settled_append (settled_of_notMem hmark)]
        decide

/-! ## Reading literally -/

/-- The characters of a prompt, and whether they are part of a value in it. -/
def placed (before value after : List Char) : List (Char × Bool) :=
  before.map (·, false) ++ (value.map (·, true) ++ after.map (·, false))

/-- The units of a prompt that have characters of a value in it. -/
def unitsOfValue (shell : Shell) (before value after : List Char) : List (List (Char × Bool)) :=
  (shell.units Prod.fst (placed before value after)).filter fun unit => unit.any Prod.snd

/-- Whether a value in a prompt is read as a text: the units that have characters of it have no
others, and what they show is the text, so that none of them expands to anything. -/
def ReadsLiterally (shell : Shell) (before value after : List Char) (text : String) : Prop :=
  (∀ unit ∈ shell.unitsOfValue before value after, ∀ c ∈ unit, c.2 = true) ∧
    (shell.unitsOfValue before value after).map (fun unit => shell.shown? (unit.map Prod.fst)) =
      text.toList.map some

instance (shell : Shell) (before value after : List Char) (text : String) :
    Decidable (shell.ReadsLiterally before value after text) :=
  inferInstanceAs (Decidable (_ ∧ _))

theorem filter_units_outside (shell : Shell) (text : List Char) :
    (shell.units Prod.fst (text.map (·, false))).filter (fun unit => unit.any Prod.snd) = [] := by
  apply List.filter_eq_nil_iff.mpr
  intro unit hunit hany
  obtain ⟨c, hc, htrue⟩ := List.any_eq_true.mp hany
  have hmem : c ∈ (shell.units Prod.fst (text.map (·, false))).flatten :=
    List.mem_flatten_of_mem hunit hc
  rw [flatten_units] at hmem
  obtain ⟨_, _, rfl⟩ := List.mem_map.mp hmem
  cases htrue

theorem map_fst_place (text : List Char) (inside : Bool) :
    (text.map (·, inside)).map Prod.fst = text := by
  rw [List.map_map]
  exact List.map_id text

theorem unitsOfValue_escape {before after : List Char} (hbefore : settled shell before = true)
    (text : List Char) :
    shell.unitsOfValue before (text.flatMap shell.unitOf) after =
      text.map fun c => (shell.unitOf c).map (·, true) := by
  have hwhole : settled shell ((before.map (·, false)).map Prod.fst) = true := by
    rwa [map_fst_place]
  have hinside : ∀ unit ∈ text.map (fun c => (shell.unitOf c).map (·, true)),
      unit.any Prod.snd = true := by
    intro unit hunit
    obtain ⟨c, _, rfl⟩ := List.mem_map.mp hunit
    rcases unitOf_cases shell c with h | ⟨h, _⟩ <;> simp [h]
  rw [unitsOfValue, placed, units_append hwhole, units_escape fun _ => rfl, List.filter_append,
    List.filter_append, filter_units_outside, filter_units_outside,
    List.filter_eq_self.mpr hinside, List.nil_append, List.append_nil]

theorem unitsOfValue_nil (shell : Shell) (before after : List Char) :
    shell.unitsOfValue before [] after = [] := by
  have hplaced : placed before [] after = (before ++ after).map (·, false) := by simp [placed]
  rw [unitsOfValue, hplaced, filter_units_outside]

/-- Where a unit is not complete, it takes in the first character of a value. -/
theorem settled_of_units {before value after : List Char} (hne : value ≠ [])
    (h : ∀ unit ∈ shell.unitsOfValue before value after, ∀ c ∈ unit, c.2 = true) :
    settled shell before = true := by
  by_contra hopen
  have hopen : settled shell ((before.map (·, false)).map Prod.fst) = false := by
    rw [map_fst_place]
    simpa using hopen
  obtain ⟨d, value, rfl⟩ := List.exists_cons_of_ne_nil hne
  obtain ⟨c, hc, hunit⟩ := exists_unit_across (d, true)
    (value.map (·, true) ++ after.map (·, false)) hopen
  obtain ⟨b, _, rfl⟩ := List.mem_map.mp hc
  have hmem : [(b, false), (d, true)] ∈ shell.unitsOfValue before (d :: value) after :=
    List.mem_filter.mpr ⟨hunit, by simp⟩
  have hfalse := h _ hmem (b, false) (by simp)
  cases hfalse

theorem flatMap_unitOf_ne_nil {text : List Char} (h : text ≠ []) :
    text.flatMap shell.unitOf ≠ [] := by
  obtain ⟨c, rest, rfl⟩ := List.exists_cons_of_ne_nil h
  rcases unitOf_cases shell c with hunit | ⟨hunit, _⟩ <;> simp [hunit]

/-- Escaped text is read literally exactly if the prompt in front of it ends with an even number of
marks, or if there is nothing to read. -/
theorem readsLiterally_escape_iff {before after : List Char} {text : String} :
    shell.ReadsLiterally before (shell.escape text).toList after text ↔
      text = "" ∨ Even (openMarks shell before).length := by
  rw [← settled_iff_even, toList_escape]
  constructor
  · rintro ⟨hinside, _⟩
    by_cases htext : text = ""
    · exact .inl htext
    · have hne : text.toList ≠ [] := by simpa using htext
      exact .inr (settled_of_units (flatMap_unitOf_ne_nil hne) hinside)
  · rintro (rfl | hsettled)
    · have hnone := unitsOfValue_nil shell before after
      simp [ReadsLiterally, hnone]
    · rw [ReadsLiterally, unitsOfValue_escape hsettled]
      refine ⟨?_, ?_⟩
      · intro unit hunit c hc
        obtain ⟨d, _, rfl⟩ := List.mem_map.mp hunit
        obtain ⟨_, _, rfl⟩ := List.mem_map.mp hc
        rfl
      · rw [List.map_map]
        refine List.map_congr_left fun c _ => ?_
        rw [Function.comp_apply, map_fst_place, shown?_unitOf]

end ShellPrompt.Shell
