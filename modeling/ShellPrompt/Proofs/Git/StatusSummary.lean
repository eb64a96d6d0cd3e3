import Mathlib.Data.List.Count
import ShellPrompt.Git.StatusSummary
import ShellPrompt.Proofs.Text.Split

/-! # What a status summary counts

Each file that git lists is counted by its code: one that git does not know or that is in conflict
once, and any other changed one in each column that holds a letter. Three letters of the second
column are passed over: a file that is only added, renamed or copied in the working tree is not
counted at all, so a summary may say that nothing is changed when there are such files. -/

namespace ShellPrompt.Git

/-! ## Codes -/

/-- The code of a file: what is staged of it and what is not. -/
structure StatusCode where
  index : Char
  worktree : Char
deriving DecidableEq, Repr

namespace StatusCode

/-- The letters of a column: none, modified, type changed, added, deleted, renamed, copied. -/
def columnLetters : List Char := [' ', 'M', 'T', 'A', 'D', 'R', 'C']

/-- The codes of files whose versions could not be merged. -/
def unmerged : List StatusCode :=
  [⟨'D', 'D'⟩, ⟨'A', 'U'⟩, ⟨'U', 'D'⟩, ⟨'U', 'A'⟩, ⟨'D', 'U'⟩, ⟨'A', 'A'⟩, ⟨'U', 'U'⟩]

/-- The codes of files that are changed in a column. -/
def inColumns : List StatusCode :=
  (columnLetters.flatMap fun index => columnLetters.map fun worktree => ⟨index, worktree⟩).erase
    ⟨' ', ' '⟩

/-- The code of files that git does not know. -/
def untracked : StatusCode := ⟨'?', '?'⟩

/-- The code of files that git is told to ignore. -/
def ignored : StatusCode := ⟨'!', '!'⟩

/-- The codes that git documents. -/
def documented : List StatusCode := [untracked, ignored] ++ unmerged ++ inColumns

/-- Whether a file is changed, known to git and not in conflict. -/
def isChanged (code : StatusCode) : Bool :=
  code ≠ untracked && code ≠ ignored && !unmerged.contains code

/-- Whether a change is staged. -/
def isStaged (code : StatusCode) : Bool := code.isChanged && code.index ≠ ' '

/-- Whether a change is not staged. -/
def isUnstaged (code : StatusCode) : Bool := code.isChanged && code.worktree ≠ ' '

/-- Whether a change that is not staged has a letter that is passed over. -/
def isPassedOver (code : StatusCode) : Bool :=
  code.isChanged && ['A', 'R', 'C'].contains code.worktree

theorem isUnstaged_of_isPassedOver {code : StatusCode} (h : code.isPassedOver = true) :
    code.isUnstaged = true := by
  have hcolumn : ∀ letter ∈ ['A', 'R', 'C'], letter ≠ ' ' := by simp
  simp only [isPassedOver, Bool.and_eq_true, List.contains_eq_mem, decide_eq_true_eq] at h
  simp [isUnstaged, h.1, hcolumn code.worktree h.2]

end StatusCode

/-! ## Listings -/

/-- A file that git lists. -/
structure FileStatus where
  code : StatusCode
  path : List Char
  documented : code ∈ StatusCode.documented
  unbroken : Text.IsUnbroken path

namespace FileStatus

/-- The line for a file. -/
def line (file : FileStatus) : List Char :=
  file.code.index :: file.code.worktree :: ' ' :: file.path

theorem line_ne_nil (file : FileStatus) : file.line ≠ [] := by
  simp [line]

theorem isUnbroken_line (file : FileStatus) : Text.IsUnbroken file.line := by
  have hcode : ∀ code ∈ StatusCode.documented,
      Text.isLineEnd code.index = false ∧ Text.isLineEnd code.worktree = false := by
    decide +kernel
  obtain ⟨hindex, hworktree⟩ := hcode file.code file.documented
  intro c hc
  simp only [line, List.mem_cons] at hc
  rcases hc with rfl | rfl | rfl | hc
  · exact hindex
  · exact hworktree
  · decide
  · exact file.unbroken c hc

/-- What git writes about some files. -/
def listing (files : List FileStatus) : String :=
  String.ofList ((files.map line).flatMap fun line => line ++ ['\n'])

/-- The same with the last line left open. -/
def openListing (files : List FileStatus) : String :=
  Text.join "\n" ((files.map line).map String.ofList)

theorem lineRuns_listing (files : List FileStatus) :
    Text.lineRuns (listing files).toList = files.map line := by
  rw [listing, String.toList_ofList]
  exact Text.lineRuns_flatMap (List.forall_mem_map.mpr fun file _ => file.isUnbroken_line)

theorem lineRuns_openListing (files : List FileStatus) :
    Text.lineRuns (openListing files).toList = files.map line :=
  Text.lineRuns_join (List.forall_mem_map.mpr fun file _ => file.line_ne_nil)
    (List.forall_mem_map.mpr fun file _ => file.isUnbroken_line)

end FileStatus

/-! ## Summaries -/

namespace StatusSummary

open FileStatus

instance : Add StatusSummary where
  add first second :=
    { staged := first.staged + second.staged
      unstaged := first.unstaged + second.unstaged
      untracked := first.untracked + second.untracked
      conflicted := first.conflicted + second.conflicted }

theorem add_def (first second : StatusSummary) :
    first + second = ⟨first.staged + second.staged, first.unstaged + second.unstaged,
      first.untracked + second.untracked, first.conflicted + second.conflicted⟩ := rfl

theorem add_assoc (first second third : StatusSummary) :
    first + second + third = first + (second + third) := by
  simp only [add_def, Nat.add_assoc]

theorem empty_add (summary : StatusSummary) : {} + summary = summary := by
  simp only [add_def, Nat.zero_add]

theorem addCode_eq_add (summary : StatusSummary) (index worktree : Char) :
    summary.addCode index worktree = summary + addCode {} index worktree := by
  unfold addCode
  split
  · rfl
  · split
    · rfl
    · simp [add_def]

/-- What is counted of some codes. -/
def ofCodes (codes : List StatusCode) : StatusSummary where
  staged := codes.countP (·.isStaged)
  unstaged := codes.countP fun code => code.isUnstaged && !code.isPassedOver
  untracked := codes.count .untracked
  conflicted := codes.countP StatusCode.unmerged.contains

theorem ofCodes_append (first second : List StatusCode) :
    ofCodes (first ++ second) = ofCodes first + ofCodes second := by
  simp only [ofCodes, List.countP_append, List.count_append, add_def]

theorem ofCodes_perm {first second : List StatusCode} (h : first.Perm second) :
    ofCodes first = ofCodes second := by
  simp only [ofCodes, h.countP_eq, h.count_eq]

theorem addCode_documented :
    ∀ code ∈ StatusCode.documented, addCode {} code.index code.worktree = ofCodes [code] := by
  decide

theorem addLine_line (summary : StatusSummary) (file : FileStatus) :
    summary.addLine file.line = summary + ofCodes [file.code] := by
  rw [line, addLine, addCode_eq_add, addCode_documented file.code file.documented]

/-- All files are counted, whatever was counted before. -/
theorem foldl_addLine (summary : StatusSummary) (files : List FileStatus) :
    (files.map line).foldl addLine summary = summary + ofCodes (files.map (·.code)) := by
  induction files generalizing summary with
  | nil => rfl
  | cons file rest ih =>
      rw [List.map_cons, List.foldl_cons, ih, addLine_line, add_assoc, ← ofCodes_append,
        List.singleton_append, List.map_cons]

theorem ofPorcelain_eq_ofCodes {output : String} {files : List FileStatus}
    (h : Text.lineRuns output.toList = files.map line) :
    ofPorcelain output = ofCodes (files.map (·.code)) := by
  rw [ofPorcelain, h, foldl_addLine, empty_add]

/-- The changes that are not staged are those that are counted and those that are passed over. -/
theorem unstaged_add_countP (codes : List StatusCode) :
    (ofCodes codes).unstaged + codes.countP (·.isPassedOver) = codes.countP (·.isUnstaged) := by
  induction codes with
  | nil => rfl
  | cons code rest ih =>
      simp only [ofCodes, List.countP_cons] at ih ⊢
      cases hpassed : code.isPassedOver with
      | false => simp only [Bool.not_false, Bool.and_true, Bool.false_eq_true, if_false]; omega
      | true =>
          have hunstaged := StatusCode.isUnstaged_of_isPassedOver hpassed
          simp only [hunstaged, Bool.not_true, Bool.and_false, Bool.false_eq_true, if_true,
            if_false]
          omega

theorem isClean_add_iff {first second : StatusSummary} :
    (first + second).isClean = true ↔ first.isClean = true ∧ second.isClean = true := by
  simp only [isClean, add_def, Bool.and_eq_true, beq_iff_eq]
  omega

theorem isClean_ofCodes_iff {codes : List StatusCode}
    (h : ∀ code ∈ codes, code ∈ StatusCode.documented) :
    (ofCodes codes).isClean = true ↔
      ∀ code ∈ codes, code = .ignored ∨ code.index = ' ' ∧ code.isPassedOver = true := by
  have hsingle : ∀ code ∈ StatusCode.documented, (ofCodes [code]).isClean = true ↔
      code = .ignored ∨ code.index = ' ' ∧ code.isPassedOver = true := by
    decide
  induction codes with
  | nil => exact iff_of_true rfl (by simp)
  | cons code rest ih =>
      obtain ⟨hcode, hrest⟩ := List.forall_mem_cons.mp h
      have hadd : ofCodes (code :: rest) = ofCodes [code] + ofCodes rest :=
        ofCodes_append [code] rest
      rw [hadd, isClean_add_iff, List.forall_mem_cons]
      exact and_congr (hsingle code hcode) (ih hrest)

/-- Each file is counted once by its code, in whatever order the files are listed, except that the
letters of an addition, a renaming and a copy are passed over in the second column. -/
theorem ofPorcelain_listing (files : List FileStatus) :
    let codes := files.map (·.code)
    let summary := ofPorcelain (listing files)
    (summary.untracked = codes.count .untracked ∧
      summary.conflicted = codes.countP StatusCode.unmerged.contains ∧
      summary.staged = codes.countP (·.isStaged) ∧
      summary.unstaged + codes.countP (·.isPassedOver) = codes.countP (·.isUnstaged)) ∧
    ofPorcelain (openListing files) = summary ∧
    (∀ others, ofPorcelain (listing (files ++ others)) =
      summary + ofPorcelain (listing others)) ∧
    (∀ others, files.Perm others → ofPorcelain (listing others) = summary) ∧
    (summary.isClean = true ↔
      ∀ code ∈ codes, code = .ignored ∨ code.index = ' ' ∧ code.isPassedOver = true) := by
  have hlisting : ∀ others, ofPorcelain (listing others) = ofCodes (others.map (·.code)) :=
    fun others => ofPorcelain_eq_ofCodes (lineRuns_listing others)
  dsimp only
  simp only [hlisting]
  refine ⟨⟨rfl, rfl, rfl, unstaged_add_countP _⟩, ?_, fun others => ?_, fun others hperm => ?_, ?_⟩
  · exact ofPorcelain_eq_ofCodes (lineRuns_openListing files)
  · rw [List.map_append, ofCodes_append]
  · exact (ofCodes_perm (hperm.map _)).symm
  · exact isClean_ofCodes_iff (List.forall_mem_map.mpr fun file _ => file.documented)

/-- A file that is changed, one whose versions could not be merged, and an ignored one. -/
def threeFiles : List FileStatus :=
  [⟨⟨'M', 'T'⟩, ['a'], by decide, by decide⟩, ⟨⟨'A', 'A'⟩, ['b'], by decide, by decide⟩,
    ⟨⟨'!', '!'⟩, ['c'], by decide, by decide⟩]

theorem ofPorcelain_threeFiles :
    threeFiles.Perm threeFiles.reverse ∧
      ofPorcelain (listing threeFiles.reverse) = { staged := 1, unstaged := 1, conflicted := 1 } := by
  have hperm : threeFiles.Perm threeFiles.reverse := threeFiles.reverse_perm.symm
  obtain ⟨_, _, _, hreverse, _⟩ := ofPorcelain_listing threeFiles
  exact ⟨hperm, (hreverse threeFiles.reverse hperm).trans (by decide)⟩

/-- A file that is to be added, of which nothing is staged yet. -/
def addedFile : FileStatus := ⟨⟨' ', 'A'⟩, ['n', 'e', 'w'], by decide, by decide⟩

/-- Such a file is changed, but the summary says that nothing is. -/
theorem isClean_addedFile :
    addedFile.code.isUnstaged = true ∧ addedFile.code ≠ .ignored ∧
      listing [addedFile] = " A new\n" ∧ (ofPorcelain " A new\n").unstaged = 0 ∧
      (ofPorcelain " A new\n").isClean = true := by
  decide

end StatusSummary

end ShellPrompt.Git
