import Mathlib.Data.List.Forall2
import ShellPrompt.Proofs.Yaml.Keys

/-! # Settings file by file

The settings of the files in a directory, the main settings and the defaults are merged in a nested
way. As long as nothing is reset among them, this is merging all of them one after another. -/

namespace ShellPrompt.Config

open Data Entries

/-! ## Reading one file after another -/

section

variable {α : Type} {read : α → Except LoadError Entries}

theorem mapM_eq_ok_iff {items : List α} {layers : List Entries} :
    items.mapM read = .ok layers ↔
      List.Forall₂ (fun item layer => read item = .ok layer) items layers := by
  induction items generalizing layers with
  | nil => simp [eq_comm, pure, Except.pure]
  | cons item items ih =>
      rw [List.mapM_cons, List.forall₂_cons_left_iff]
      simp only [← ih]
      cases read item with
      | error error => simp [bind, Except.bind]
      | ok layer =>
          cases items.mapM read with
          | error error => simp [bind, Except.bind]
          | ok rest => simp [bind, Except.bind, pure, Except.pure, eq_comm]

theorem exists_of_mem_mapM {items : List α} {layers : List Entries}
    (h : items.mapM read = .ok layers) {layer : Entries} (hlayer : layer ∈ layers) :
    ∃ item ∈ items, read item = .ok layer := by
  induction mapM_eq_ok_iff.mp h with
  | nil => cases hlayer
  | @cons item first items layers hfirst hrest ih =>
      obtain rfl | hmem := List.mem_cons.mp hlayer
      · exact ⟨item, by simp, hfirst⟩
      · obtain ⟨later, hlater, heq⟩ := ih (mapM_eq_ok_iff.mpr hrest) hmem
        exact ⟨later, by simp [hlater], heq⟩

/-- Files are merged while they are read, or all of them are read first. -/
theorem foldlM_merge_eq (items : List α) (settings : Entries) :
    items.foldlM (fun settings item => do return merge settings (← read item)) settings =
      (items.mapM read).map fun layers => layers.foldl merge settings := by
  induction items generalizing settings with
  | nil => rfl
  | cons item items ih =>
      rw [List.foldlM_cons, List.mapM_cons]
      cases hread : read item with
      | error error => rfl
      | ok layer =>
          refine (ih (merge settings layer)).trans ?_
          cases items.mapM read <;> rfl

end

/-- The settings of each file in a directory, in the order in which they are merged. -/
def layersIn (tree : FileTree) (directory : Path) : Except LoadError (List Entries) :=
  match tree.locate? directory with
  | none => .ok []
  | some names =>
    if tree.isDirectory names then
      (settingFiles tree names).mapM fun name => settingsAt tree (directory.append (.ofString name))
    else .ok []

theorem settingsIn_eq (tree : FileTree) (directory : Path) :
    settingsIn tree directory = (layersIn tree directory).map merged := by
  unfold settingsIn layersIn
  cases tree.locate? directory with
  | none => rfl
  | some names =>
      by_cases hdirectory : tree.isDirectory names = true
      · simp only [if_pos hdirectory]
        exact foldlM_merge_eq _ []
      · simp only [if_neg hdirectory]
        rfl

/-! ## Settings that are read -/

section

variable {tree : FileTree} {directory path : Path} {source text : String} {settings : Entries}
  {layers : List Entries}

theorem proper_settingsOf (h : settingsOf source text = .ok settings) :
    (Data.map settings).Proper := by
  unfold settingsOf at h
  split at h
  · cases h
  · cases h
    exact .map distinct_nil (by simp)
  · next hread =>
      cases h
      exact Yaml.proper_read hread
  · cases h

theorem proper_settingsAt (h : settingsAt tree path = .ok settings) :
    (Data.map settings).Proper := by
  unfold settingsAt at h
  split at h
  · cases h
    exact .map distinct_nil (by simp)
  · cases h
  · exact proper_settingsOf h

theorem proper_layersIn (h : layersIn tree directory = .ok layers) :
    ∀ settings ∈ layers, (Data.map settings).Proper := by
  unfold layersIn at h
  split at h
  · cases h
    simp
  · split at h
    · intro settings hsettings
      obtain ⟨name, _, hname⟩ := exists_of_mem_mapM h hsettings
      exact proper_settingsAt hname
    · cases h
      simp

theorem proper_defaults : (Data.map defaults).Proper := by
  have hdistinct : List.Pairwise (fun a b : Scalar × Data => a.1.same b.1 = false) defaults := by
    decide
  apply Proper.map hdistinct
  intro entry hentry
  simp only [defaults, List.mem_cons, List.not_mem_nil, or_false] at hentry
  obtain rfl | rfl | rfl := hentry
  · exact .other (by decide)
  · exact .other (by decide)
  · exact .map distinct_nil (by simp)

end

/-! ## Merging in groups and one after another -/

/-- The empty mapping changes nothing. Mappings may be merged in any grouping, with the same keys in
the same order, unless a mapping or a list is reset. So the settings of a configuration are those of
the defaults, the main file and the further files merged one after another. -/
theorem merge_grouping :
    (∀ settings, (Data.map settings).Proper →
      merge [] settings = settings ∧ merge settings [] = settings) ∧
    (∀ first second third, (Data.map first).Proper → (Data.map second).Proper →
      (Data.map third).Proper → ¬ Resets (.map first) (.map second) (.map third) →
      merge (merge first second) third = merge first (merge second third)) ∧
    ∀ tree home file directory main layers,
      settingsAt tree (file.getD (defaultFile home)) = .ok main →
      layersIn tree (directory.getD (defaultDirectory home)) = .ok layers →
      ResetFree (defaults :: main :: layers) →
      (∃ further, settingsIn tree (directory.getD (defaultDirectory home)) = .ok further ∧
        merge defaults (merge main further) = merged (defaults :: main :: layers)) ∧
      load tree home file directory =
        (ofMerged (merged (defaults :: main :: layers))).mapError .config := by
  refine ⟨fun settings h => ⟨merge_nil_left h.distinct, merge_nil settings⟩,
    fun first second third hfirst hsecond hthird => merge_assoc hfirst hsecond hthird, ?_⟩
  intro tree home file directory main layers hmain hlayers hfree
  have hfurther := settingsIn_eq tree (directory.getD (defaultDirectory home))
  rw [hlayers] at hfurther
  have hproper : ∀ settings ∈ main :: layers, (Data.map settings).Proper := by
    intro settings hsettings
    obtain rfl | hmem := List.mem_cons.mp hsettings
    · exact proper_settingsAt hmain
    · exact proper_layersIn hlayers settings hmem
  have hall : ∀ settings ∈ defaults :: main :: layers, (Data.map settings).Proper := by
    intro settings hsettings
    obtain rfl | hmem := List.mem_cons.mp hsettings
    · exact proper_defaults
    · exact hproper settings hmem
  have hdata : merge defaults (merge main (merged layers)) = merged (defaults :: main :: layers) :=
    calc
      merge defaults (merge main (merged layers)) = merge defaults (merged (main :: layers)) := by
        rw [merged_cons hproper hfree.tail]
      _ = merged (defaults :: main :: layers) := by
        rw [merged_cons hall hfree]
  refine ⟨⟨merged layers, hfurther, hdata⟩, ?_⟩
  rw [load, hmain, ← hdata]
  simp only [bind, Except.bind, hfurther]
  rfl

/-! ## Files with one setting -/

/-- Settings that are one field with a text. -/
def textSetting (field value : String) : Entries := [(.text field, .scalar (.text value))]

/-- Whether a text sets one field to a text, and nothing else. -/
def setsText (text field value : String) : Bool :=
  match Yaml.read text with
  | .ok (.map [(.text key, .scalar (.text found))]) => key = field ∧ found = value
  | _ => false

theorem read_of_setsText {text field value : String} (h : setsText text field value = true) :
    Yaml.read text = .ok (.map (textSetting field value)) := by
  unfold setsText at h
  split at h
  · next hread =>
      obtain ⟨rfl, rfl⟩ := of_decide_eq_true h
      exact hread
  · cases h

theorem settingsAt_of_setsText {tree : FileTree} {path : Path} {content field value : String}
    {executable : Bool} (hentry : tree.resolve? path = some (.file content executable))
    (h : setsText (String.ofList (plainLines content.toList)) field value = true) :
    settingsAt tree path = .ok (textSetting field value) := by
  rw [settingsAt, hentry]
  simp only [settingsOf, read_of_setsText h]

/-- A main file with a template, and a further file that turns colors off. -/
def layeredFiles : FileTree where
  entries := [(["etc", "config.yaml"], .file "template: '$ '\n" false),
    (["etc", "conf.d", "plain.yml"], .file "color: 'no'\n" false)]
  here := ["etc"]

theorem settingsAt_layeredFiles :
    settingsAt layeredFiles (.ofString "config.yaml") = .ok (textSetting templateField "$ ") := by
  have hentry : layeredFiles.resolve? (.ofString "config.yaml") =
      some (.file "template: '$ '\n" false) := by
    decide
  exact settingsAt_of_setsText hentry (by decide +kernel)

theorem layersIn_layeredFiles :
    layersIn layeredFiles (.ofString "conf.d") = .ok [textSetting colorField "no"] := by
  have hlocate : layeredFiles.locate? (.ofString "conf.d") = some ["etc", "conf.d"] := by decide
  have hdirectory : layeredFiles.isDirectory ["etc", "conf.d"] = true := by decide
  have hfiles : settingFiles layeredFiles ["etc", "conf.d"] = ["plain.yml"] := by decide +kernel
  have hentry : layeredFiles.resolve? ((Path.ofString "conf.d").append (.ofString "plain.yml")) =
      some (.file "color: 'no'\n" false) := by
    decide
  rw [layersIn, hlocate]
  simp only [hdirectory, if_true, hfiles]
  exact mapM_eq_ok_iff.mpr (.cons (settingsAt_of_setsText hentry (by decide +kernel)) .nil)

theorem merge_grouping_layered :
    (merge [] defaults = defaults ∧ merge defaults [] = defaults) ∧
    merge (merge defaults (textSetting templateField "$ ")) (textSetting colorField "no") =
      merge defaults (merge (textSetting templateField "$ ") (textSetting colorField "no")) ∧
    load layeredFiles (.ofString "/") (some (.ofString "config.yaml")) (some (.ofString "conf.d")) =
      (ofMerged (merged [defaults, textSetting templateField "$ ",
        textSetting colorField "no"])).mapError .config := by
  have hreset : ¬ Resets (.map defaults) (.map (textSetting templateField "$ "))
      (.map (textSetting colorField "no")) := by
    apply not_resets_of_absent
    intro entry hentry
    obtain rfl := List.mem_singleton.mp hentry
    rfl
  have hfree : ResetFree [defaults, textSetting templateField "$ ",
      textSetting colorField "no"] := by
    intro first second third hsublist
    cases hsublist.eq_of_length rfl
    exact hreset
  have hmain := proper_settingsAt settingsAt_layeredFiles
  have hlayer := proper_layersIn layersIn_layeredFiles (textSetting colorField "no") (by simp)
  have hload := merge_grouping.2.2 layeredFiles (.ofString "/") (some (.ofString "config.yaml"))
    (some (.ofString "conf.d")) _ _ settingsAt_layeredFiles layersIn_layeredFiles hfree
  exact ⟨merge_grouping.1 defaults proper_defaults,
    merge_grouping.2.1 defaults _ _ proper_defaults hmain hlayer hreset, hload.2⟩

end ShellPrompt.Config
