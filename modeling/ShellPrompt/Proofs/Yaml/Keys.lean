import ShellPrompt.Config.Files
import ShellPrompt.Proofs.Data.Grouping

/-! # Keys of mappings that are read

The pairs of a mapping are entered one after another, so in what a document stands for no key occurs
twice, at any depth. -/

namespace ShellPrompt

namespace Yaml

theorem Graded.both_eq_ok_iff {α β γ : Type} {combine : α → β → γ} {first : Graded α}
    {second : Graded β} {result : γ} :
    Graded.both combine first second = .ok result ↔
      ∃ a b, first = .ok a ∧ second = .ok b ∧ combine a b = result := by
  cases first with
  | error fault =>
      cases second with
      | error other =>
          simp only [Graded.both, reduceCtorEq, false_and, exists_false, iff_false]
          split <;> simp
      | ok b => simp [Graded.both]
  | ok a =>
      cases second with
      | error fault => simp [Graded.both]
      | ok b => simp [Graded.both]

namespace Node

/-- What is gathered comes from the items. -/
theorem exists_of_mem_gather {α β : Type} {f : α → Graded β} {items : List α} {results : List β}
    (h : gather f items = .ok results) {result : β} (hresult : result ∈ results) :
    ∃ item ∈ items, f item = .ok result := by
  induction items generalizing results with
  | nil =>
      obtain rfl := Except.ok.inj h
      cases hresult
  | cons item items ih =>
      obtain ⟨first, rest, hfirst, hrest, rfl⟩ := Graded.both_eq_ok_iff.mp h
      rcases List.mem_cons.mp hresult with rfl | hmem
      · exact ⟨item, List.mem_cons_self, hfirst⟩
      · obtain ⟨later, hlater, heq⟩ := ih hrest hmem
        exact ⟨later, List.mem_cons_of_mem _ hlater, heq⟩

theorem exists_of_map_eq_ok {α β : Type} {f : α → β} {result : Graded α} {value : β}
    (h : result.map f = .ok value) : ∃ a, result = .ok a ∧ f a = value := by
  cases result with
  | error fault => cases h
  | ok a => exact ⟨a, rfl, Except.ok.inj h⟩

theorem proper_ellipsis (ofMapping : Bool) : (ellipsis ofMapping).Proper := by
  cases ofMapping <;> exact .other (by simp [ellipsis, Data.kind])

/-- The entries of a mapping have the keys and values of its pairs. -/
theorem proper_ofPairs {f : Node × Node → Graded Scalar} {g : Node → Graded Data}
    {items : List (Node × Node)} {pairs : List (Scalar × Data)}
    (h : gather (fun pair => Graded.both Prod.mk (f pair) (g pair.2)) items = .ok pairs)
    (hg : ∀ node value, g node = .ok value → value.Proper) :
    (Data.map (Entries.ofPairs pairs)).Proper := by
  apply Data.Proper.map (Entries.distinct_ofPairs pairs)
  intro entry hentry
  obtain ⟨pair, hpair, heq⟩ := Entries.exists_of_mem_ofPairs hentry
  obtain ⟨item, _, hitem⟩ := exists_of_mem_gather h hpair
  obtain ⟨key, value, _, hvalue, rfl⟩ := Graded.both_eq_ok_iff.mp hitem
  rw [← heq]
  exact hg item.2 value hvalue

theorem proper_list {items : List Data} : (Data.list items).Proper := .other (by simp [Data.kind])

theorem proper_of_place {level : Nat} {result : Except Fault Scalar} {value : Data}
    (h : Graded.place level (result.map .scalar) = .ok value) : value.Proper := by
  cases result with
  | error fault => cases h
  | ok scalar =>
      cases h
      exact .other (by simp [Data.kind])

/-- In what a node stands for no key occurs twice. -/
theorem proper_dataFrom {bound level : Nat} {node : Node} {value : Data}
    (h : dataFrom bound level node = .ok value) : value.Proper := by
  induction bound generalizing level node value with
  | zero =>
      unfold dataFrom at h
      split at h
      case h_1 => cases h; exact proper_ellipsis _
      case h_2 => cases h
      case h_3 heq _ => cases heq
  | succ bound ih =>
      unfold dataFrom at h
      split at h
      case h_1 => cases h; exact proper_ellipsis _
      case h_2 heq _ => cases heq
      case h_3 heq _ =>
        cases heq
        simp only at h
        split at h
        case h_1 =>
          split at h
          · exact proper_of_place h
          · cases h
        case h_2 =>
          obtain ⟨items, _, rfl⟩ := exists_of_map_eq_ok h
          exact proper_list
        case h_3 =>
          split at h
          · obtain ⟨items, _, rfl⟩ := exists_of_map_eq_ok h
            exact proper_list
          · cases h
        case h_4 =>
          split at h
          · obtain ⟨pairs, hpairs, heq⟩ := exists_of_map_eq_ok h
            split at heq
            · cases heq
              exact .other (by simp [Data.kind])
            · cases heq
              exact proper_ofPairs hpairs fun _ _ => ih
          · cases h
        case h_5 => cases h

theorem proper_toData {node : Node} {value : Data} (h : node.toData = .ok value) :
    value.Proper := by
  rw [toData] at h
  cases hdata : dataFrom (node.depth + 1) 0 node with
  | error fault => rw [hdata] at h; cases h
  | ok found =>
      rw [hdata] at h
      cases h
      exact proper_dataFrom hdata

end Node

/-- In what a text stands for no key occurs twice. -/
theorem proper_read {text : String} {value : Data} (h : read text = .ok value) : value.Proper := by
  rw [read] at h
  cases hroot : Node.ofLexemes? (Lexeme.ofText text.toList) with
  | error fault => rw [hroot] at h; cases h
  | ok root =>
      rw [hroot] at h
      cases root with
      | none => cases h; exact .other (by simp [Data.kind])
      | some node => exact Node.proper_toData h

end Yaml

end ShellPrompt
