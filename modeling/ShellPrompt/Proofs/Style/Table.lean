import ShellPrompt.Proofs.Dictionary
import ShellPrompt.Proofs.Style.Rendition
import ShellPrompt.Style.Table

/-! # Tables with keywords of the user's own

Such a table has the built-in keywords and the user's, and the renditions in it are built-in ones or
come from descriptions. -/

namespace ShellPrompt.StyleTable

theorem define_eq_ok_iff {table next : StyleTable} {name spec : String} :
    table.define name spec = .ok next ↔
      ∃ look, Rendition.ofSpec spec = .ok look ∧ next = ⟨table.styles.insert name look⟩ := by
  rw [define]
  cases Rendition.ofSpec spec with
  | error error => simp [Except.map]
  | ok look => simp [Except.map, eq_comm]

theorem contains_insert {table : StyleTable} {name other : String} {look : Rendition} :
    StyleTable.contains ⟨table.styles.insert name look⟩ other = true ↔
      other = name ∨ table.contains other = true := by
  rw [contains_iff, contains_iff, Dictionary.contains_insert, or_left_comm]

/-- What adding a list of keywords does. -/
structure Defines (table : StyleTable) (custom : List (String × String)) (last : StyleTable) :
    Prop where
  contains_iff : ∀ name, last.contains name = true ↔
    table.contains name = true ∨ name ∈ custom.map Prod.fst
  look_cases : ∀ entry ∈ last.styles.entries, entry ∈ table.styles.entries ∨
    ∃ pair ∈ custom, Rendition.ofSpec pair.2 = .ok entry.2

theorem Defines.cons {table next last : StyleTable} {pair : String × String}
    {custom : List (String × String)} (hdefine : table.define pair.1 pair.2 = .ok next)
    (h : Defines next custom last) : Defines table (pair :: custom) last := by
  obtain ⟨look, hlook, rfl⟩ := define_eq_ok_iff.mp hdefine
  refine ⟨fun name => ?_, fun entry hentry => ?_⟩
  · rw [h.contains_iff, contains_insert, List.map_cons, List.mem_cons, or_assoc, or_left_comm]
  · rcases h.look_cases entry hentry with hnext | ⟨other, hmem, hother⟩
    · rcases Dictionary.mem_of_mem_enter hnext with rfl | htable
      · exact .inr ⟨pair, List.mem_cons_self .., hlook⟩
      · exact .inl htable
    · exact .inr ⟨other, List.mem_cons_of_mem _ hmem, hother⟩

theorem defines_of_foldlM {custom : List (String × String)} {table last : StyleTable}
    (h : custom.foldlM (fun table entry => table.define entry.1 entry.2) table = .ok last) :
    Defines table custom last := by
  induction custom generalizing table with
  | nil =>
      obtain rfl := Except.ok.inj h
      exact ⟨by simp, fun entry hentry => .inl hentry⟩
  | cons pair custom ih =>
      rw [List.foldlM_cons] at h
      cases hdefine : table.define pair.1 pair.2 with
      | error error =>
          rw [hdefine] at h
          cases h
      | ok next =>
          rw [hdefine] at h
          exact (ih h).cons hdefine

theorem exists_foldlM_define {custom : List (String × String)}
    (h : ∀ pair ∈ custom, ∃ look, Rendition.ofSpec pair.2 = .ok look) (table : StyleTable) :
    ∃ last, custom.foldlM (fun table entry => table.define entry.1 entry.2) table = .ok last := by
  induction custom generalizing table with
  | nil => exact ⟨table, rfl⟩
  | cons pair custom ih =>
      obtain ⟨hpair, hrest⟩ := List.forall_mem_cons.mp h
      obtain ⟨look, hlook⟩ := hpair
      obtain ⟨last, hlast⟩ := ih hrest ⟨table.styles.insert pair.1 look⟩
      refine ⟨last, ?_⟩
      rw [List.foldlM_cons, define_eq_ok_iff.mpr ⟨look, hlook, rfl⟩]
      exact hlast

theorem defines_ofSpecs {custom : Dictionary String String} {table : StyleTable}
    (h : ofSpecs custom = .ok table) : Defines builtin custom.entries table :=
  defines_of_foldlM h

/-- Descriptions that can be read make a table. -/
theorem exists_ofSpecs {custom : Dictionary String String}
    (h : ∀ pair ∈ custom.entries, ∃ look, Rendition.ofSpec pair.2 = .ok look) :
    ∃ table, ofSpecs custom = .ok table :=
  exists_foldlM_define h builtin

/-! ## Escape sequences of keywords -/

theorem readable_of_mem_builtin {entry : String × Rendition}
    (h : entry ∈ builtin.styles.entries) : entry.2.Readable := by
  rcases List.mem_append.mp (Dictionary.mem_of_mem_ofPairs h) with hnamed | hattribute
  · rcases List.mem_append.mp hnamed with hcolor | hgray
    · obtain ⟨color, _, hcolor⟩ := List.mem_flatMap.mp hcolor
      simp only [colorEntries, List.mem_cons, List.not_mem_nil, or_false] at hcolor
      rcases hcolor with rfl | rfl
      · exact Rendition.readable_empty.withForeground (ColorRef.readable_name color)
      · exact Rendition.readable_empty.withForeground (ColorRef.readable_brightName color)
    · obtain ⟨name, hname, rfl⟩ := List.mem_map.mp hgray
      have hcolor : (paletteIndex? name).isSome = true := by
        revert name
        decide
      exact Rendition.readable_empty.withForeground (ColorRef.readable_of_paletteIndex? hcolor)
  · obtain ⟨attr, _, rfl⟩ := List.mem_map.mp hattribute
    exact ⟨by simp, by simp⟩

theorem exists_look {table : StyleTable} {name : String} (h : table.contains name = true)
    (hname : name ≠ resetName) : ∃ look, table.styles.get? name = some look := by
  have hkeys := Dictionary.contains_iff.mp ((contains_iff.mp h).resolve_left hname)
  obtain ⟨⟨key, look⟩, hentry, rfl⟩ := List.mem_map.mp hkeys
  exact ⟨look, Dictionary.get?_eq_some_iff.mpr hentry⟩

/-- Every keyword of a table has an escape sequence. -/
theorem exists_sequence {custom : Dictionary String String} {table : StyleTable} {name : String}
    (htable : ofSpecs custom = .ok table) (hname : table.contains name = true) :
    ∃ code, table.sequence name = .ok code := by
  unfold sequence
  split
  · exact ⟨resetSequence, rfl⟩
  · rename_i hreset
    obtain ⟨look, hlook⟩ := exists_look hname hreset
    have hreadable : look.Readable := by
      rcases (defines_ofSpecs htable).look_cases _ (Dictionary.get?_eq_some_iff.mp hlook) with
        hbuiltin | ⟨pair, _, hspec⟩
      · exact readable_of_mem_builtin hbuiltin
      · exact Rendition.readable_of_ofSpec hspec
    obtain ⟨code, hcode⟩ := hreadable.exists_sequence
    exact ⟨code, by rw [hlook]; simp only [hcode]; rfl⟩

end ShellPrompt.StyleTable
