import ShellPrompt.Path
import ShellPrompt.Proofs.Text.Split

/-! # Paths and their texts

The text of a path is read as that path again, so different paths have different texts. A path is
extended by the names that are read from what is put behind it, and what has to follow one path to
give another is unique. -/

namespace ShellPrompt

theorem isPathName_iff {name : String} :
    isPathName name = true ↔ name ≠ "" ∧ name ≠ "." ∧ '/' ∉ name.toList := by
  simp [isPathName, and_assoc]

namespace Path

theorem eq_of_names_eq {first second : Path} (hroot : first.root = second.root)
    (hnames : first.names = second.names) : first = second := by
  cases first
  cases second
  cases hroot
  cases hnames
  rfl

/-! ## Texts -/

section

variable {names : List String}

theorem exists_cons_of_isPathName {name : String} (h : isPathName name = true) :
    ∃ c rest, name.toList = c :: rest ∧ c ≠ '/' := by
  obtain ⟨hne, _, hslash⟩ := isPathName_iff.mp h
  cases htext : name.toList with
  | nil => exact absurd (String.toList_eq_nil_iff.mp htext) hne
  | cons c rest =>
      refine ⟨c, rest, rfl, ?_⟩
      rintro rfl
      exact hslash (by simp [htext])

/-- Joined names begin with no slash. -/
theorem head?_join (h : ∀ name ∈ names, isPathName name = true) :
    (Text.join "/" names).toList.head? ≠ some '/' := by
  cases names with
  | nil => simp [Text.join]
  | cons name rest =>
      obtain ⟨c, tail, hname, hc⟩ := exists_cons_of_isPathName (h name List.mem_cons_self)
      cases rest with
      | nil => simpa [Text.join, hname] using hc
      | cons next rest => simpa [Text.join, hname] using hc

theorem namesOf_join (h : ∀ name ∈ names, isPathName name = true) :
    namesOf (Text.join "/" names) = names := by
  by_cases hnil : names = []
  · subst hnil
    decide
  · have hslash : ∀ name ∈ names, '/' ∉ name.toList :=
      fun name hname => (isPathName_iff.mp (h name hname)).2.2
    have hfields : Text.fields '/' (Text.join "/" names) = names := Text.fields_join hnil hslash
    rw [namesOf, hfields]
    exact List.filter_eq_self.mpr h

/-- A slash in front of a text adds no name. -/
theorem namesOf_slash (text : String) : namesOf ("/" ++ text) = namesOf text := by
  have hfields : Text.fields '/' ("/" ++ text) = "" :: Text.fields '/' text := by
    simp [Text.fields, Text.fieldRuns]
  rw [namesOf, hfields, List.filter_cons_of_neg (by decide), namesOf]

theorem namesOf_append (root : PathRoot) (text : String) :
    namesOf (root.text ++ text) = namesOf text := by
  have hdouble : PathRoot.text .double ++ text = "/" ++ ("/" ++ text) := by
    rw [← String.append_assoc]
    rfl
  cases root with
  | relative => rw [PathRoot.text, String.empty_append]
  | single => rw [PathRoot.text, namesOf_slash]
  | double => rw [hdouble, namesOf_slash, namesOf_slash]

theorem rootOf_append (root : PathRoot) {text : String} (h : text.toList.head? ≠ some '/') :
    rootOf (root.text ++ text).toList = root := by
  have hroot : rootOf (root.text.toList ++ text.toList) = root := by
    cases htext : text.toList with
    | nil => cases root <;> rfl
    | cons c rest =>
        have hc : c ≠ '/' := by simpa [htext] using h
        cases root <;> simp [PathRoot.text, rootOf, hc]
  rwa [String.toList_append]

end

/-- A path is found again in its text. -/
theorem ofString_text (path : Path) : ofString path.text = path := by
  by_cases hempty : path.root = .relative ∧ path.names = []
  · have htext : path.text = "." := if_pos hempty
    rw [htext]
    exact eq_of_names_eq hempty.1.symm hempty.2.symm
  · have htext : path.text = path.root.text ++ Text.join "/" path.names := if_neg hempty
    rw [htext]
    apply eq_of_names_eq
    · exact rootOf_append path.root (head?_join path.valid)
    · exact (namesOf_append path.root _).trans (namesOf_join path.valid)

/-! ## Paths behind a path -/

section

variable {path base rest : Path} {name : String}

theorem ofString_of_notMem (h : '/' ∉ name.toList) :
    (ofString name).root = .relative ∧ (ofString name).names = [name].filter isPathName := by
  have hhead : name.toList.head? ≠ some '/' := fun hslash => h (List.mem_of_head? hslash)
  constructor
  · have hroot := rootOf_append .relative hhead
    rwa [PathRoot.text, String.empty_append] at hroot
  · simp only [ofString, namesOf, Text.fields_eq_singleton h]

theorem append_of_relative (h : rest.root = .relative) :
    (path.append rest).root = path.root ∧ (path.append rest).names = path.names ++ rest.names := by
  have habsolute : rest.isAbsolute = false := by simp [isAbsolute, h]
  simp [append, habsolute]

theorem append_ofString (path : Path) (h : isPathName name = true) :
    (path.append (.ofString name)).root = path.root ∧
      (path.append (.ofString name)).names = path.names ++ [name] := by
  obtain ⟨hroot, hnames⟩ := ofString_of_notMem (isPathName_iff.mp h).2.2
  rw [List.filter_eq_self.mpr (by simpa using h)] at hnames
  rw [← hnames]
  exact append_of_relative hroot

/-- Of the texts that extend a path, those that are names stay. -/
theorem extend_of_notMem (path : Path) {tails : List String}
    (h : ∀ tail ∈ tails, '/' ∉ tail.toList) :
    (path.extend tails).root = path.root ∧
      (path.extend tails).names = path.names ++ tails.filter isPathName := by
  induction tails generalizing path with
  | nil => simp [extend]
  | cons tail rest ih =>
      obtain ⟨htail, hrest⟩ := List.forall_mem_cons.mp h
      obtain ⟨hroot, hnames⟩ := ofString_of_notMem htail
      obtain ⟨hfirst, hpath⟩ := append_of_relative hroot
      obtain ⟨hlast, hextended⟩ := ih (path.append (ofString tail)) hrest
      refine ⟨hlast.trans hfirst, ?_⟩
      rw [extend, List.foldl_cons, ← extend, hextended, hpath, hnames, List.append_assoc,
        ← List.filter_append, List.singleton_append]

theorem extend_of_isPathName (path : Path) {names : List String}
    (h : ∀ name ∈ names, isPathName name = true) :
    (path.extend names).root = path.root ∧ (path.extend names).names = path.names ++ names := by
  have hextended := path.extend_of_notMem fun name hname => (isPathName_iff.mp (h name hname)).2.2
  rwa [List.filter_eq_self.mpr h] at hextended

theorem names_parent (path : Path) : path.parent.names = path.names.dropLast := rfl

theorem relativeTo?_eq_some_iff :
    path.relativeTo? base = some rest ↔
      path.root = base.root ∧ rest.root = .relative ∧ path.names = base.names ++ rest.names := by
  unfold relativeTo?
  constructor
  · intro h
    split at h
    · rename_i hstart
      obtain rfl := Option.some.inj h
      exact ⟨hstart.1, rfl, List.prefix_iff_eq_append.mp hstart.2 |>.symm⟩
    · cases h
  · rintro ⟨hroot, hrelative, hnames⟩
    rw [if_pos ⟨hroot, base.names.prefix_append rest.names |>.trans (hnames ▸ List.prefix_rfl)⟩]
    exact congrArg some (eq_of_names_eq hrelative.symm (by simp [hnames]))

theorem exists_relativeTo? {names : List String} (hroot : path.root = base.root)
    (hnames : path.names = base.names ++ names) :
    ∃ rest, path.relativeTo? base = some rest ∧ rest.root = .relative ∧ rest.names = names := by
  have hvalid : ∀ name ∈ names, isPathName name = true :=
    fun name hname => path.valid name (by simp [hnames, hname])
  exact ⟨⟨.relative, names, hvalid⟩, relativeTo?_eq_some_iff.mpr ⟨hroot, rfl, hnames⟩, rfl, rfl⟩

theorem relativeTo?_eq_none_iff :
    path.relativeTo? base = none ↔ ¬ (path.root = base.root ∧ base.names <+: path.names) := by
  simp [relativeTo?]

end

end Path

end ShellPrompt
