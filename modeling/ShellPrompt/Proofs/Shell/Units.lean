import Mathlib.Algebra.Group.Nat.Even
import Mathlib.Data.List.DropRight
import ShellPrompt.Shell.Escape

/-! # How a shell reads a prompt

A prompt is read from left to right in units. The mark of the shell, a backslash or a percent sign,
takes the next character into its unit. So a text can be read by itself only if what stands in
front of it does not end in the middle of a unit, and that is a matter of how many marks it ends
with. -/

namespace ShellPrompt.Shell

variable {α : Type} {shell : Shell} {char : α → Char}

/-- The character that takes the next one into its unit. -/
def mark : Shell → Char
  | bash => '\\'
  | zsh => '%'

/-- The units of a prompt, given as any objects that stand for characters. -/
def units (shell : Shell) (char : α → Char) : List α → List (List α)
  | [] => []
  | [c] => [[c]]
  | c :: d :: rest =>
    if char c = shell.mark then [c, d] :: units shell char rest
    else [c] :: units shell char (d :: rest)

/-- The character that a unit shows, none where the unit makes the shell expand something. -/
def shown? : Shell → List Char → Option Char
  | bash, [c] => if c = '$' ∨ c = '\x60' then none else some c
  | bash, [_, c] => some c
  | zsh, [c] => if c = '%' then none else some c
  | zsh, [_, c] => if c = '%' then some c else none
  | _, _ => none

/-! ## Texts that end with a whole unit -/

/-- Whether a text that is read by itself ends with a whole unit. -/
def settled (shell : Shell) (text : List Char) : Bool :=
  text.foldl (fun whole c => !whole || c != shell.mark) true

/-- The marks at the end of a text. -/
def openMarks (shell : Shell) (text : List Char) : List Char := text.rtakeWhile (· = shell.mark)

theorem settled_cons_mark {c d : Char} {text : List Char} (h : c = shell.mark) :
    settled shell (c :: d :: text) = settled shell text := by
  simp [settled, h]

theorem settled_cons {c : Char} {text : List Char} (h : c ≠ shell.mark) :
    settled shell (c :: text) = settled shell text := by
  have hc : (c != shell.mark) = true := by simpa using h
  simp [settled, hc]

theorem settled_concat {c : Char} {text : List Char} :
    settled shell (text ++ [c]) = (!settled shell text || c != shell.mark) := by
  simp [settled]

theorem settled_append {first second : List Char} (h : settled shell first = true) :
    settled shell (first ++ second) = settled shell second := by
  unfold settled at h ⊢
  rw [List.foldl_append, h]

theorem settled_of_notMem {text : List Char} (h : shell.mark ∉ text) :
    settled shell text = true := by
  induction text with
  | nil => rfl
  | cons c text ih =>
      rw [List.mem_cons, not_or] at h
      rw [settled_cons (Ne.symm h.1), ih h.2]

/-- A text ends with a whole unit exactly if it ends with an even number of marks. -/
theorem settled_iff_even {text : List Char} :
    settled shell text = true ↔ Even (openMarks shell text).length := by
  induction text using List.reverseRecOn with
  | nil => simp [settled, openMarks]
  | append_singleton text c ih =>
      rw [settled_concat]
      by_cases hc : c = shell.mark
      · have hmarks : (openMarks shell (text ++ [c])).length =
            (openMarks shell text).length + 1 := by
          rw [openMarks, List.rtakeWhile_concat_pos _ _ _ (by simpa using hc), List.length_append]
          rfl
        rw [hmarks, Nat.even_add_one, ← ih]
        simp [hc]
      · have hmarks : openMarks shell (text ++ [c]) = [] := by
          rw [openMarks, List.rtakeWhile_concat_neg _ _ _ (by simpa using hc)]
        rw [hmarks]
        simp [hc]

theorem flatten_units (text : List α) : (units shell char text).flatten = text := by
  fun_induction units shell char text with
  | case1 => rfl
  | case2 c => rfl
  | case3 c d rest hc ih => simp [ih]
  | case4 c d rest hc ih => simp [ih]

/-- Behind whole units a prompt is read as if it began there. -/
theorem units_append {first second : List α} (h : settled shell (first.map char) = true) :
    units shell char (first ++ second) = units shell char first ++ units shell char second := by
  fun_induction units shell char first with
  | case1 => rfl
  | case2 c =>
      have hc : char c ≠ shell.mark := by simpa [settled] using h
      cases second with
      | nil => rfl
      | cons d second => simp [units, hc]
  | case3 c d rest hc ih =>
      rw [List.map_cons, List.map_cons, settled_cons_mark hc] at h
      simp [units, hc, ih h]
  | case4 c d rest hc ih =>
      rw [List.map_cons, settled_cons hc] at h
      have hrest := ih h
      rw [List.cons_append] at hrest
      simp [units, hc, hrest]

/-- Behind a unit that is not complete, the next character belongs to that unit. -/
theorem exists_unit_across {first : List α} (d : α) (second : List α)
    (h : settled shell (first.map char) = false) :
    ∃ c ∈ first, [c, d] ∈ units shell char (first ++ d :: second) := by
  fun_induction units shell char first with
  | case1 => simp [settled] at h
  | case2 c =>
      have hc : char c = shell.mark := by simpa [settled] using h
      exact ⟨c, by simp, by simp [units, hc]⟩
  | case3 c e rest hc ih =>
      rw [List.map_cons, List.map_cons, settled_cons_mark hc] at h
      obtain ⟨b, hb, hunit⟩ := ih h
      exact ⟨b, by simp [hb], by simp [units, hc, hunit]⟩
  | case4 c e rest hc ih =>
      rw [List.map_cons, settled_cons hc] at h
      obtain ⟨b, hb, hunit⟩ := ih h
      rw [List.cons_append] at hunit
      exact ⟨b, List.mem_cons_of_mem _ hb, by simp [units, hc, hunit]⟩

end ShellPrompt.Shell
