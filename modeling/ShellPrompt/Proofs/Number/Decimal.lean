import Mathlib.Algebra.Group.Nat.Defs
import Mathlib.Data.List.TakeWhile
import ShellPrompt.Number.Integer

/-! # Decimal numbers

A number that is written in decimal digits is read again as what it was, as long as it has no more
digits than may be read. -/

namespace ShellPrompt.Numeral

variable {c : Char} {digits : List Char}

/-! ## Digits -/

theorem exists_digitChar (h : c.isDigit = true) : ∃ d < 10, c = Nat.digitChar d := by
  simp only [Char.isDigit, Bool.and_eq_true, decide_eq_true_eq, UInt32.le_iff_toNat_le] at h
  have hlow : 48 ≤ c.toNat := h.1
  have hhigh : c.toNat ≤ 57 := h.2
  refine ⟨c.toNat - 48, by omega, ?_⟩
  apply Char.toNat_inj.mp
  rw [Nat.toNat_digitChar_of_lt_ten (by omega)]
  omega

theorem valueIn?_digitChar : ∀ d < 10, valueIn? 10 (Nat.digitChar d) = some d := by
  decide

theorem isMargin_digitChar : ∀ d < 10, isMargin (Nat.digitChar d) = false := by
  decide

theorem valueIn?_of_isDigit (h : c.isDigit = true) : valueIn? 10 c = some (c.toNat - 48) := by
  obtain ⟨d, hd, rfl⟩ := exists_digitChar h
  rw [valueIn?_digitChar d hd, Nat.toNat_digitChar_of_lt_ten hd, Nat.add_sub_cancel_left]

theorem isMargin_of_isDigit (h : c.isDigit = true) : isMargin c = false := by
  obtain ⟨d, hd, rfl⟩ := exists_digitChar h
  exact isMargin_digitChar d hd

theorem digitsOf?_of_isDigit (hne : digits ≠ []) (h : ∀ c ∈ digits, c.isDigit = true) :
    digitsOf? 10 digits = some (digits.map fun c => c.toNat - 48) := by
  induction digits with
  | nil => exact (hne rfl).elim
  | cons c rest ih =>
      obtain ⟨hc, hrest⟩ := List.forall_mem_cons.mp h
      cases rest with
      | nil =>
          rw [digitsOf?, valueIn?_of_isDigit hc]
          rfl
      | cons next rest =>
          have hnext : next ≠ '_' := by
            intro heq
            have hdigit := hrest next List.mem_cons_self
            rw [heq] at hdigit
            cases hdigit
          rw [digitsOf?, valueIn?_of_isDigit hc, ih (by simp) hrest]
          · rfl
          · simp
          · intro other heq
            exact hnext (List.cons.inj heq).1

theorem ofDigits_eq_ofDigitChars (digits : List Char) :
    ofDigits 10 (digits.map fun c => c.toNat - 48) = Nat.ofDigitChars 10 digits 0 := by
  have hfold : ∀ n, (digits.map fun c => c.toNat - 48).foldl (fun n d => n * 10 + d) n =
      Nat.ofDigitChars 10 digits n := by
    induction digits with
    | nil => exact fun n => rfl
    | cons c rest ih =>
        intro n
        rw [List.map_cons, List.foldl_cons, ih, Nat.ofDigitChars_cons, Nat.mul_comm]
        rfl
  exact hfold 0

/-! ## Numbers -/

theorem splitSign_of_isDigit (h : ∀ c ∈ digits, c.isDigit = true) :
    splitSign digits = (false, digits) := by
  unfold splitSign
  split
  · cases h '-' List.mem_cons_self
  · cases h '+' List.mem_cons_self
  · rfl

/-- Decimal numbers bear no mark of their base. -/
theorem dropBaseMark_ten (text : List Char) : dropBaseMark 10 text = text := by
  have hmark : baseMark? 10 = none := by decide
  unfold dropBaseMark
  split
  · rw [hmark, if_neg (by simp)]
  · rfl

theorem read_of_isDigit {text : String} (hne : text.toList ≠ [])
    (h : ∀ c ∈ text.toList, c.isDigit = true) :
    read 10 text = if text.toList.length ≤ maxDigits then
        .ok (Nat.ofDigitChars 10 text.toList 0 : Nat)
      else .error (.tooLong text.toList.length) := by
  have hmargin : text.toList.dropWhile isMargin = text.toList := by
    cases htext : text.toList with
    | nil => rfl
    | cons c rest =>
        rw [htext] at h
        rw [List.dropWhile_cons, isMargin_of_isDigit (h c List.mem_cons_self)]
        rfl
  have hrun : ∀ c ∈ text.toList, (c == '_' || (valueIn? 10 c).isSome) = true := by
    intro c hc
    rw [valueIn?_of_isDigit (h c hc), Option.isSome_some, Bool.or_true]
  have htake := List.takeWhile_eq_self_iff.mpr hrun
  have hdrop := List.dropWhile_eq_nil_iff.mpr hrun
  rw [read, hmargin, splitSign_of_isDigit h]
  simp only [dropBaseMark_ten, htake, hdrop, digitsOf?_of_isDigit hne h, List.length_map,
    ofDigits_eq_ofDigitChars]
  by_cases hlength : text.toList.length ≤ maxDigits
  · have hshort : (10 == 10 && decide (text.toList.length > maxDigits)) = false := by
      simp [hlength]
    rw [if_pos hlength, hshort]
    rfl
  · have hlong : (10 == 10 && decide (text.toList.length > maxDigits)) = true := by
      simp [Nat.lt_of_not_le hlength]
    rw [if_neg hlength, hlong]
    rfl

/-- A number is read as it was written, unless it has too many digits. -/
theorem read_toString (n : Nat) :
    (read 10 (toString n)).toOption = if n < 10 ^ maxDigits then some (n : Int) else none := by
  have htext : (toString n).toList = Nat.toDigits 10 n := Nat.toList_repr ..
  have hdigits : ∀ c ∈ (toString n).toList, c.isDigit = true := by
    intro c hc
    rw [htext] at hc
    exact Nat.isDigit_of_mem_toDigits (by decide) (by decide) hc
  have hne : (toString n).toList ≠ [] := by
    rw [htext]
    exact Nat.toDigits_ne_nil
  have hlength : (toString n).toList.length ≤ maxDigits ↔ n < 10 ^ maxDigits := by
    rw [htext]
    exact Nat.length_toDigits_le_iff (by decide) (by decide)
  rw [read_of_isDigit hne hdigits, htext, Nat.ofDigitChars_ten_toDigits]
  rw [htext] at hlength
  by_cases hn : n < 10 ^ maxDigits
  · rw [if_pos (hlength.mpr hn), if_pos hn]
    rfl
  · rw [if_neg (hlength.not.mpr hn), if_neg hn]
    rfl

end ShellPrompt.Numeral
