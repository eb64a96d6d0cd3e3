import ShellPrompt.Proofs.Shell.Literal

/-! # Escaped text that stands alone

Bash's characters are escaped by three replacements that go over the whole text one after another.
Together they are one: each character is replaced by the unit that shows it, whatever stands around
it. So a shell that reads escaped text by itself expands nothing and comes back to the text. -/

namespace ShellPrompt.Shell

variable {shell : Shell} {prompt : List Char}

/-- A prompt that a shell reads as a text: it does not stop in the middle of a unit, no unit makes
the shell expand something, and what the units show is the text. -/
structure ReadsAs (shell : Shell) (prompt text : List Char) : Prop where
  settled : settled shell prompt = true
  shown : (units shell id prompt).map shell.shown? = text.map some

theorem ReadsAs.shown?_ne_none {text : List Char} (h : shell.ReadsAs prompt text) :
    ∀ unit ∈ units shell id prompt, shell.shown? unit ≠ none := by
  intro unit hunit hnone
  have hmem : none ∈ text.map some := h.shown ▸ List.mem_map.mpr ⟨unit, hunit, hnone⟩
  obtain ⟨c, _, hc⟩ := List.mem_map.mp hmem
  cases hc

theorem ReadsAs.unique {first second : List Char} (h₁ : shell.ReadsAs prompt first)
    (h₂ : shell.ReadsAs prompt second) : first = second :=
  List.map_injective_iff.mpr (Option.some_injective Char) (h₁.shown.symm.trans h₂.shown)

theorem units_flatMap_unitOf (shell : Shell) (text : List Char) :
    units shell id (text.flatMap shell.unitOf) = text.map shell.unitOf := by
  have h : units shell id ((text.flatMap shell.unitOf).map id ++ []) =
      text.map (fun c => (shell.unitOf c).map id) ++ units shell id [] :=
    units_escape (fun _ => rfl) text []
  simpa [units] using h

theorem readsAs_escape (shell : Shell) (text : String) :
    shell.ReadsAs (shell.escape text).toList text.toList := by
  refine ⟨settled_escape shell text, ?_⟩
  rw [toList_escape, units_flatMap_unitOf, List.map_map]
  exact List.map_congr_left fun c _ => shown?_unitOf shell c

/-- Escaping replaces each character by itself, so texts may be escaped part by part. Escaped text
is read as the text, without expanding anything, so different texts stay different. -/
theorem escape_characterwise (shell : Shell) :
    (∀ text : String, (shell.escape text).toList = text.toList.flatMap shell.unitOf) ∧
    (∀ first second : String,
      shell.escape (first ++ second) = shell.escape first ++ shell.escape second) ∧
    (∀ text : String, shell.ReadsAs (shell.escape text).toList text.toList ∧
      ∀ unit ∈ units shell id (shell.escape text).toList, shell.shown? unit ≠ none) ∧
    Function.Injective shell.escape := by
  refine ⟨toList_escape shell, fun first second => ?_, fun text => ?_, fun first second h => ?_⟩
  · apply String.toList_injective
    simp only [String.toList_append, toList_escape, List.flatMap_append]
  · have hreads := readsAs_escape shell text
    exact ⟨hreads, hreads.shown?_ne_none⟩
  · have hfirst := readsAs_escape shell first
    rw [h] at hfirst
    exact String.toList_injective (hfirst.unique (readsAs_escape shell second))

end ShellPrompt.Shell
