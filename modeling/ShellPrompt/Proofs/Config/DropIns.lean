import Mathlib.Data.List.Perm.Basic
import Mathlib.Data.List.Nodup
import Mathlib.Data.String.Basic
import ShellPrompt.Proofs.Config.Layers
import ShellPrompt.Proofs.Path

/-! # The order of the files in a directory

The files whose names end in `.yaml` are merged first and the files whose names end in `.yml` after
them, both in the order of their names. So the last file that says something decides, but it need
not be the one with the greatest name. -/

namespace ShellPrompt

/-! ## Files below a directory -/

section

variable {tree : FileTree} {directory : Path} {names : List String} {name : String}

namespace FileTree

theorem walk_append (tree : FileTree) (start first second : List String) :
    tree.walk start (first ++ second) =
      (tree.walk start first).bind fun middle => tree.walk middle second := by
  induction first generalizing start with
  | nil => rfl
  | cons name rest ih =>
      rw [List.cons_append, walk, walk]
      split
      · rfl
      · split
        · exact ih _
        · exact ih _

/-- A name behind the path of a directory leads to what the directory has by that name. -/
theorem resolve?_append (hlocate : tree.locate? directory = some names)
    (hdirectory : tree.isDirectory names = true) (hname : isPathName name = true)
    (hparent : name ≠ "..") :
    tree.resolve? (directory.append (.ofString name)) = tree.find? (names ++ [name]) := by
  obtain ⟨hroot, hnames⟩ := directory.append_ofString hname
  have hlast : tree.locate? (directory.append (.ofString name)) = some (names ++ [name]) := by
    rw [locate?, Path.isAbsolute, hroot, hnames, walk_append]
    apply Option.bind_eq_some_iff.mpr
    exact ⟨names, hlocate, by simp [walk, hdirectory, hparent]⟩
  rw [resolve?, hlast]
  rfl

end FileTree

end

/-! ## Values that stay -/

namespace Data

open Entries

/-- Whether a mapping says nothing of the value at a key path: it has no key there, and on the way
to it nothing but mappings. -/
def Spares : Data → List Scalar → Prop
  | _, [] => False
  | value, key :: path =>
    ∃ entries, value = map entries ∧ ∀ inner, get? entries key = some inner → Spares inner path

theorem at?_cover_of_spares {value old : Data} {path : List Scalar} {found : Data}
    (hproper : Proper value) (h : Spares value path) (hold : old.at? path = some found) :
    (cover value (some old)).at? path = some found := by
  induction path generalizing value old with
  | nil => cases h
  | cons key path ih =>
      obtain ⟨entries, rfl, hinner⟩ := h
      have hmapping : old.kind = .mapping := by
        by_contra hother
        rw [at?_cons_of_kind_ne hother] at hold
        cases hold
      obtain ⟨base, rfl⟩ := exists_map_of_kind hmapping
      rw [at?_map_cons] at hold
      obtain ⟨before, hbefore, hpath⟩ := Option.bind_eq_some_iff.mp hold
      rw [cover_map_map, at?_map_cons, get?_merge hproper.distinct, hbefore]
      cases hnew : get? entries key with
      | none => exact hpath
      | some inner => exact ih (hproper.of_get? hnew) (hinner inner hnew) hpath

theorem at?_cover_of_single {value found : Data} {old : Option Data} {path : List Scalar}
    (hproper : Proper value) (hfound : value.at? path = some found)
    (hsingle : found.kind = .single) : (cover value old).at? path = some found := by
  induction path generalizing value old with
  | nil =>
      cases hfound
      rw [cover_of_single hsingle]
      rfl
  | cons key path ih =>
      have hmapping : value.kind = .mapping := by
        by_contra hother
        rw [at?_cons_of_kind_ne hother] at hfound
        cases hfound
      obtain ⟨entries, rfl⟩ := exists_map_of_kind hmapping
      cases old with
      | none => rwa [cover_none]
      | some old =>
          by_cases hold : old.kind = .mapping
          · obtain ⟨base, rfl⟩ := exists_map_of_kind hold
            rw [at?_map_cons] at hfound
            obtain ⟨inner, hinner, hpath⟩ := Option.bind_eq_some_iff.mp hfound
            rw [cover_map_map, at?_map_cons, get?_merge hproper.distinct, hinner]
            cases hbefore : get? base key with
            | none =>
                rw [overlay_none_left]
                exact hpath
            | some before => exact ih (hproper.of_get? hinner) hpath
          · rwa [cover_of_kind_ne hold]

end Data

namespace Entries

open Data

/-- The last mapping that says something of the value at a key path decides, if that is neither a
mapping nor a list. -/
theorem at?_merged_of_last {before after : List Entries} {last : Entries} {path : List Scalar}
    {value : Data} (hlast : (Data.map last).Proper)
    (hafter : ∀ later ∈ after, (Data.map later).Proper)
    (hvalue : (Data.map last).at? path = some value) (hsingle : value.kind = .single)
    (hspares : ∀ later ∈ after, (Data.map later).Spares path) :
    (Data.map (merged (before ++ last :: after))).at? path = some value := by
  induction after using List.reverseRecOn with
  | nil =>
      rw [merged_concat, ← cover_map_map]
      exact at?_cover_of_single hlast hvalue hsingle
  | append_singleton after final ih =>
      rw [← List.cons_append, ← List.append_assoc, merged_concat, ← cover_map_map]
      apply at?_cover_of_spares (hafter final (by simp)) (hspares final (by simp))
      exact ih (fun later hlater => hafter later (List.mem_append_left _ hlater))
        fun later hlater => hspares later (List.mem_append_left _ hlater)

end Entries

namespace Config

/-! ## The order in which files are merged -/

/-- Whether the name of a file ends in a certain way. -/
def HasEnding (ending name : String) : Prop := ending.toList <:+ name.toList

instance (ending name : String) : Decidable (HasEnding ending name) :=
  inferInstanceAs (Decidable (ending.toList <:+ name.toList))

/-- Whether a file is merged before another: those that end in `.yaml` come first, and files with
the same ending come in the order of their names. -/
def Precedes (first second : String) : Prop :=
  HasEnding ".yaml" first ∧ HasEnding ".yml" second ∨
    (HasEnding ".yaml" first ↔ HasEnding ".yaml" second) ∧ first < second

section

variable {tree : FileTree} {names : List String} {ending name : String}

/-- No name ends in both ways. -/
theorem not_hasEnding_yaml (h : HasEnding ".yml" name) : ¬ HasEnding ".yaml" name := by
  intro hyaml
  have hsuffix : ".yml".toList <:+ ".yaml".toList :=
    List.suffix_of_suffix_length_le h hyaml (by decide)
  revert hsuffix
  decide

theorem not_precedes {first second : String} (hyml : HasEnding ".yml" first)
    (hyaml : HasEnding ".yaml" second) : ¬ Precedes first second := by
  rintro (⟨h, _⟩ | ⟨hsame, _⟩)
  · exact not_hasEnding_yaml hyml h
  · exact not_hasEnding_yaml hyml (hsame.mpr hyaml)

theorem nodup_eraseDups (all : List String) : all.eraseDups.Nodup := by
  cases all with
  | nil => simp
  | cons name rest =>
      rw [List.eraseDups_cons, List.nodup_cons]
      constructor
      · simp
      · exact nodup_eraseDups _
termination_by all.length
decreasing_by exact Nat.lt_succ_of_le (List.length_filter_le _ _)

theorem mem_filesEnding :
    name ∈ filesEnding tree names ending ↔ name ∈ tree.children names ∧ HasEnding ending name := by
  simp [filesEnding, HasEnding]

theorem nodup_filesEnding : (filesEnding tree names ending).Nodup := by
  apply (List.mergeSort_perm _ _).nodup_iff.mpr
  exact (nodup_eraseDups _).filter _

theorem pairwise_filesEnding :
    (filesEnding tree names ending).Pairwise fun first second =>
      HasEnding ending first ∧ HasEnding ending second ∧ first < second := by
  have hsorted : (filesEnding tree names ending).Pairwise fun first second =>
      nameLe first second = true := by
    apply List.pairwise_mergeSort
    · intro a b c hab hbc
      simp only [nameLe, decide_eq_true_eq] at hab hbc ⊢
      exact hab.trans hbc
    · intro a b
      simpa [nameLe] using le_total a b
  apply (hsorted.and nodup_filesEnding).imp_of_mem
  intro first second hfirst hsecond h
  have hle : first ≤ second := by simpa [nameLe] using h.1
  exact ⟨(mem_filesEnding.mp hfirst).2, (mem_filesEnding.mp hsecond).2, lt_of_le_of_ne hle h.2⟩

theorem mem_settingFiles :
    name ∈ settingFiles tree names ↔
      name ∈ tree.children names ∧ (HasEnding ".yaml" name ∨ HasEnding ".yml" name) := by
  rw [settingFiles, List.mem_append, mem_filesEnding, mem_filesEnding, and_or_left]

theorem nodup_settingFiles : (settingFiles tree names).Nodup := by
  apply List.nodup_append'.mpr
  refine ⟨nodup_filesEnding, nodup_filesEnding, ?_⟩
  intro name hyaml hyml
  exact not_hasEnding_yaml (mem_filesEnding.mp hyml).2 (mem_filesEnding.mp hyaml).2

theorem pairwise_settingFiles : (settingFiles tree names).Pairwise Precedes := by
  apply List.pairwise_append.mpr
  refine ⟨pairwise_filesEnding.imp ?_, pairwise_filesEnding.imp ?_, ?_⟩
  · intro first second h
    exact .inr ⟨iff_of_true h.1 h.2.1, h.2.2⟩
  · intro first second h
    exact .inr ⟨iff_of_false (not_hasEnding_yaml h.1) (not_hasEnding_yaml h.2.1), h.2.2⟩
  · intro first hfirst second hsecond
    exact .inl ⟨(mem_filesEnding.mp hfirst).2, (mem_filesEnding.mp hsecond).2⟩

end

/-! ## Merging the files of a directory -/

open Entries

/-- A directory whose files that are merged are these, by their names, each with the mapping that it
holds. -/
structure DropIns (tree : FileTree) (names : List String) (files : List (String × Entries)) :
    Prop where
  isDirectory : tree.isDirectory names = true
  nodup : (files.map Prod.fst).Nodup
  mem_iff : ∀ name, name ∈ files.map Prod.fst ↔
    name ∈ tree.children names ∧ (HasEnding ".yaml" name ∨ HasEnding ".yml" name)
  isPathName : ∀ file ∈ files, isPathName file.1 = true
  holds : ∀ file ∈ files, ∃ text executable,
    tree.find? (names ++ [file.1]) = some (.file text executable) ∧
      Yaml.read (String.ofList (plainLines text.toList)) = .ok (.map file.2)

section

variable {tree : FileTree} {directory : Path} {names : List String}
  {files : List (String × Entries)} {file : String × Entries}

theorem DropIns.settingsAt (h : DropIns tree names files)
    (hlocate : tree.locate? directory = some names) (hfile : file ∈ files) :
    settingsAt tree (directory.append (.ofString file.1)) = .ok file.2 := by
  have hending := ((h.mem_iff file.1).mp (List.mem_map_of_mem hfile)).2
  have hparent : file.1 ≠ ".." := by
    intro heq
    rw [heq] at hending
    revert hending
    decide
  obtain ⟨text, executable, hfind, hread⟩ := h.holds file hfile
  have hentry := FileTree.resolve?_append hlocate h.isDirectory (h.isPathName file hfile) hparent
  rw [Config.settingsAt, hentry, hfind]
  simp only [settingsOf, hread]

theorem DropIns.proper (h : DropIns tree names files) (hfile : file ∈ files) :
    (Data.map file.2).Proper := by
  obtain ⟨text, executable, _, hread⟩ := h.holds file hfile
  exact Yaml.proper_read hread

/-- The files in the order in which they are merged. -/
theorem DropIns.exists_ordered (h : DropIns tree names files) :
    ∃ ordered : List (String × Entries),
      ordered.Perm files ∧ settingFiles tree names = ordered.map Prod.fst := by
  have hperm : (settingFiles tree names).Perm (files.map Prod.fst) := by
    apply (List.perm_ext_iff_of_nodup nodup_settingFiles h.nodup).mpr
    intro name
    rw [mem_settingFiles, h.mem_iff]
  have hcomp := congrFun₂ (List.eq_map_comp_perm (Prod.fst : String × Entries → String))
    (settingFiles tree names) files
  obtain ⟨ordered, hordered, hfiles⟩ := hcomp.mpr hperm
  exact ⟨ordered, hfiles, hordered⟩

theorem DropIns.settingsIn_eq (h : DropIns tree names files)
    (hlocate : tree.locate? directory = some names) {ordered : List (String × Entries)}
    (hperm : ordered.Perm files) (hnames : settingFiles tree names = ordered.map Prod.fst) :
    settingsIn tree directory = .ok (merged (ordered.map Prod.snd)) := by
  have hlayers : layersIn tree directory = .ok (ordered.map Prod.snd) := by
    rw [layersIn, hlocate]
    simp only [h.isDirectory, if_true, hnames]
    apply mapM_eq_ok_iff.mpr
    rw [List.forall₂_map_left_iff, List.forall₂_map_right_iff, List.forall₂_same]
    intro file hfile
    exact h.settingsAt hlocate (hperm.mem_iff.mp hfile)
  rw [Config.settingsIn_eq, hlayers]
  rfl

/-- The order is that of the names exactly if no name with the second ending comes before one with
the first. -/
theorem pairwise_lt_iff {ordered : List (String × Entries)}
    (h : ordered.Pairwise fun first second => Precedes first.1 second.1) :
    (ordered.Pairwise fun first second => first.1 < second.1) ↔
      ∀ first ∈ ordered, ∀ second ∈ ordered, HasEnding ".yaml" first.1 →
        HasEnding ".yml" second.1 → first.1 < second.1 := by
  constructor
  · intro hlt first hfirst second hsecond hyaml hyml
    obtain ⟨before, after, rfl⟩ := List.append_of_mem hsecond
    rcases List.mem_append.mp hfirst with hbefore | hrest
    · exact (List.pairwise_append.mp hlt).2.2 first hbefore second (by simp)
    · obtain rfl | hafter := List.mem_cons.mp hrest
      · exact absurd hyaml (not_hasEnding_yaml hyml)
      · have hlater : Precedes second.1 first.1 :=
          List.rel_of_pairwise_cons (List.pairwise_append.mp h).2.1 hafter
        exact absurd hlater (not_precedes hyml hyaml)
  · intro hacross
    apply h.imp_of_mem
    intro first second hfirst hsecond hprecedes
    rcases hprecedes with ⟨hyaml, hyml⟩ | ⟨_, hlt⟩
    · exact hacross first hfirst second hsecond hyaml hyml
    · exact hlt

/-- The settings in a directory are those of its files merged in a certain order, which is the order
of their names if those with the one ending come before those with the other. The last file that
says something of a single value decides. -/
theorem settingsIn_dropIns (hlocate : tree.locate? directory = some names)
    (h : DropIns tree names files) :
    ∃ ordered : List (String × Entries), ordered.Perm files ∧
      ordered.Pairwise (fun first second => Precedes first.1 second.1) ∧
      settingsIn tree directory = .ok (merged (ordered.map Prod.snd)) ∧
      (ordered.Pairwise (fun first second => first.1 < second.1) ↔
        ∀ first ∈ files, ∀ second ∈ files, HasEnding ".yaml" first.1 → HasEnding ".yml" second.1 →
          first.1 < second.1) ∧
      ∀ before file after path value, ordered = before ++ file :: after →
        (Data.map file.2).at? path = some value → value.kind = .single →
        (∀ later ∈ after, (Data.map later.2).Spares path) →
        (Data.map (merged (ordered.map Prod.snd))).at? path = some value := by
  obtain ⟨ordered, hperm, hnames⟩ := h.exists_ordered
  have hpairwise : ordered.Pairwise fun first second => Precedes first.1 second.1 := by
    have hnamed : (settingFiles tree names).Pairwise Precedes := pairwise_settingFiles
    rw [hnames] at hnamed
    exact List.pairwise_map.mp hnamed
  refine ⟨ordered, hperm, hpairwise, h.settingsIn_eq hlocate hperm hnames, ?_, ?_⟩
  · simp only [pairwise_lt_iff hpairwise, hperm.mem_iff]
  · rintro before file after path value rfl hvalue hsingle hspares
    have hproper : ∀ other ∈ before ++ file :: after, (Data.map other.2).Proper :=
      fun other hother => h.proper (hperm.mem_iff.mp hother)
    rw [List.map_append, List.map_cons]
    apply at?_merged_of_last (hproper file (by simp)) _ hvalue hsingle
    · intro later hlater
      obtain ⟨other, hother, rfl⟩ := List.mem_map.mp hlater
      exact hspares other hother
    · intro later hlater
      obtain ⟨other, hother, rfl⟩ := List.mem_map.mp hlater
      exact hproper other (by simp [hother])

end

/-! ## Names with both endings -/

/-- Two files that set the template; the name with the second ending is the smaller one. -/
def mixedFiles : FileTree where
  entries := [(["etc", "conf.d", "a.yml"], .file "template: yml\n" false),
    (["etc", "conf.d", "z.yaml"], .file "template: yaml\n" false)]
  here := ["etc"]

/-- What the two files hold, in the order of their names. -/
def mixedDropIns : List (String × Entries) :=
  [("a.yml", textSetting templateField "yml"), ("z.yaml", textSetting templateField "yaml")]

theorem dropIns_mixedFiles : DropIns mixedFiles ["etc", "conf.d"] mixedDropIns where
  isDirectory := by decide
  nodup := by decide
  mem_iff name := by
    have hchildren : mixedFiles.children ["etc", "conf.d"] = ["a.yml", "z.yaml"] := by
      decide +kernel
    rw [hchildren]
    constructor
    · intro h
      refine ⟨h, ?_⟩
      revert name
      decide
    · exact fun h => h.1
  isPathName := by decide
  holds file hfile := by
    simp only [mixedDropIns, List.mem_cons, List.not_mem_nil, or_false] at hfile
    obtain rfl | rfl := hfile
    · exact ⟨"template: yml\n", false, by decide, read_of_setsText (by decide +kernel)⟩
    · exact ⟨"template: yaml\n", false, by decide, read_of_setsText (by decide +kernel)⟩

theorem locate?_mixedFiles :
    mixedFiles.locate? (.ofString "conf.d") = some ["etc", "conf.d"] := by
  decide

theorem exists_ordered_mixedFiles : ∃ ordered : List (String × Entries),
    ordered.Perm mixedDropIns ∧
      settingsIn mixedFiles (.ofString "conf.d") = .ok (merged (ordered.map Prod.snd)) := by
  obtain ⟨ordered, hperm, _, hsettings, _⟩ :=
    settingsIn_dropIns locate?_mixedFiles dropIns_mixedFiles
  exact ⟨ordered, hperm, hsettings⟩

/-- The file with the greatest name sets the template, but the other one decides. -/
theorem settingsIn_mixedFiles :
    DropIns mixedFiles ["etc", "conf.d"] mixedDropIns ∧
    mixedDropIns.Pairwise (fun first second => first.1 < second.1) ∧
    settingsIn mixedFiles (.ofString "conf.d") = .ok (textSetting templateField "yml") ∧
    merged (mixedDropIns.map Prod.snd) = textSetting templateField "yaml" ∧
    settingsIn mixedFiles (.ofString "conf.d") ≠ .ok (merged (mixedDropIns.map Prod.snd)) := by
  have hnames : settingFiles mixedFiles ["etc", "conf.d"] =
      mixedDropIns.reverse.map Prod.fst := by
    decide +kernel
  have hsettings : settingsIn mixedFiles (.ofString "conf.d") =
      .ok (textSetting templateField "yml") :=
    dropIns_mixedFiles.settingsIn_eq locate?_mixedFiles mixedDropIns.reverse_perm hnames
  have hmerged : merged (mixedDropIns.map Prod.snd) = textSetting templateField "yaml" := rfl
  refine ⟨dropIns_mixedFiles, ?_, hsettings, hmerged, ?_⟩
  · simp only [mixedDropIns, List.pairwise_pair]
    decide
  · rw [hsettings, hmerged]
    simp [textSetting]

end Config

end ShellPrompt
