import ShellPrompt.Proofs.Shell.Replacement
import ShellPrompt.Proofs.Shell.Words

/-! # The snippet, filled in

The places of a snippet are filled one after the other, so what has been put into the first is
looked through for the mark of the second. The command comes through that unless one of its words
has the mark. Then a shell reads what stands in the command substitution as the command, the
arguments that never change and the template. -/

namespace ShellPrompt.Shell

/-! ## Quoting brings no mark

A mark is made of harmless characters, so it stands in a command line only if it stands in one of
the words. -/

section

variable {pattern : List Char} (hne : pattern ≠ [])
  (hpattern : ∀ c ∈ pattern, isHarmless c = true)

include hpattern in
theorem notMem_of_isHarmless {c : Char} (hc : isHarmless c = false) : c ∉ pattern := by
  intro hmem
  rw [hpattern c hmem] at hc
  cases hc

include hne hpattern in
theorem infix_cons_iff_of_isHarmless {c : Char} {text : List Char} (hc : isHarmless c = false) :
    pattern <:+: c :: text ↔ pattern <:+: text := by
  have h : pattern <:+: [] ++ c :: text ↔ pattern <:+: [] ∨ pattern <:+: text :=
    infix_append_cons_iff (notMem_of_isHarmless hpattern hc)
  rwa [List.nil_append, List.infix_nil, or_iff_right hne] at h

include hne hpattern in
/-- Quoted characters have a mark only where the characters have it. The run in front is what has
been passed since the last quote. -/
theorem infix_of_infix_quotedChars (run word : List Char)
    (h : pattern <:+: run ++ word.flatMap quotedChar) : pattern <:+: run ++ word := by
  induction word generalizing run with
  | nil => exact h
  | cons c rest ih =>
      by_cases hc : c = '\''
      · subst hc
        have hquote := notMem_of_isHarmless hpattern (c := '\'') (by decide)
        have hsplit : run ++ ('\'' :: rest).flatMap quotedChar =
            run ++ '\'' :: '"' :: '\'' :: '"' :: '\'' :: rest.flatMap quotedChar := rfl
        rw [hsplit, infix_append_cons_iff hquote] at h
        repeat rw [infix_cons_iff_of_isHarmless hne hpattern (by decide)] at h
        exact (infix_append_cons_iff hquote).mpr (h.imp_right (ih []))
      · have hsplit : (c :: rest).flatMap quotedChar = c :: rest.flatMap quotedChar := by
          simp [quotedChar, hc]
        rw [hsplit, List.append_cons] at h
        rw [List.append_cons]
        exact ih (run ++ [c]) h

include hne hpattern in
theorem infix_of_infix_quoteChars {word : List Char} (h : pattern <:+: quoteChars word) :
    pattern <:+: word := by
  have hquote : isHarmless '\'' = false := by decide
  rw [quoteChars] at h
  split at h
  · rw [infix_cons_iff_of_isHarmless hne hpattern hquote,
      infix_cons_iff_of_isHarmless hne hpattern hquote, List.infix_nil] at h
    exact absurd h hne
  · split at h
    · exact h
    · rw [List.cons_append, infix_cons_iff_of_isHarmless hne hpattern hquote,
        infix_append_cons_iff (notMem_of_isHarmless hpattern hquote), List.infix_nil,
        or_iff_left hne] at h
      exact infix_of_infix_quotedChars hne hpattern [] word h

include hne hpattern in
/-- A command line has no mark that its words do not have. -/
theorem not_infix_commandLine {words : List String}
    (h : ∀ word ∈ words, ¬ pattern <:+: word.toList) :
    ¬ pattern <:+: (commandLine words).toList := by
  induction words with
  | nil => simpa [commandLine, Text.join] using hne
  | cons word rest ih =>
      obtain ⟨hword, hrest⟩ := List.forall_mem_cons.mp h
      have hquote : ¬ pattern <:+: (quote word).toList := by
        rw [quote, String.toList_ofList]
        exact mt (infix_of_infix_quoteChars hne hpattern) hword
      by_cases hnil : rest = []
      · subst hnil
        exact hquote
      · have hlist : (commandLine (word :: rest)).toList =
            (quote word).toList ++ ' ' :: (commandLine rest).toList := by
          rw [commandLine, List.map_cons, Text.join_cons _ (by simpa using hnil)]
          simp [commandLine]
        rw [hlist, infix_append_cons_iff (notMem_of_isHarmless hpattern (by decide))]
        exact not_or.mpr ⟨hquote, ih hrest⟩

end

/-! ## The command line in the snippet -/

/-- The texts of the arguments that a snippet gives to the command before the template. -/
def runTexts (shell : Shell) : List String :=
  ["run", "--shell", shell.name, "--status", "\"$exit_code\"", "--jobs", "\"$job_count\"",
    "--template"]

/-- What these arguments are, where parameters have the given values. -/
def runWords (shell : Shell) (values : String → String) : List String :=
  ["run", "--shell", shell.name, "--status", values "exit_code", "--jobs", values "job_count",
    "--template"]

/-- What stands between the command and the template. -/
def runPart (shell : Shell) : List Char := ' ' :: (Text.join " " shell.runTexts).toList ++ [' ']

/-- The beginning of a command substitution that is one word. -/
def opening : List Char := ['"', '$', '(']

/-- The end of such a substitution. -/
def closing : List Char := [')', '"']

/-- The command substitution with the marks of both places. -/
def substitution (shell : Shell) : List Char :=
  opening ++ commandMark ++ shell.runPart ++ templateMark ++ closing

theorem spells_runTexts (shell : Shell) (values : String → String) :
    Spells values (Text.join " " shell.runTexts).toList (shell.runWords values) := by
  have hplain : ∀ text ∈ ["run", "--shell", "bash", "zsh", "--status", "--jobs", "--template"],
      Spells values text.toList [text] := by
    intro text htext
    have hall : ∀ text ∈ ["run", "--shell", "bash", "zsh", "--status", "--jobs", "--template"],
        text ≠ "" ∧ text.toList.all isHarmless = true := by decide
    exact spells_of_isHarmless (hall text htext).1 (hall text htext).2
  have hname : Spells values shell.name.toList [shell.name] := by
    cases shell <;> exact hplain _ (by decide)
  apply spells_join
  exact .cons (hplain _ (by decide)) <| .cons (hplain _ (by decide)) <| .cons hname <|
    .cons (hplain _ (by decide)) <| .cons (spells_parameter "exit_code" (by decide)) <|
    .cons (hplain _ (by decide)) <| .cons (spells_parameter "job_count" (by decide)) <|
    .cons (hplain _ (by decide)) .nil

/-- The command line that stands where a prompt is drawn. -/
def drawLine (shell : Shell) (command : List String) (template : String) : List Char :=
  (commandLine command).toList ++ shell.runPart ++ (quote template).toList

/-- It is read as the command, the arguments of `run` and the template. -/
theorem words?_drawLine (shell : Shell) (command : List String) (template : String)
    (values : String → String) : words? values (shell.drawLine command template) =
      some (command ++ shell.runWords values ++ [template]) := by
  have hquoted : Spells values (quote template).toList [template] := spells_quote template
  have hwords := ((spells_commandLine values command).append
    (spells_runTexts shell values)).append hquoted
  rw [← hwords.words?_eq, drawLine, runPart]
  simp only [List.append_assoc, List.cons_append, List.nil_append]

/-! ## Filling the places -/

/-- A text with the command substitution and one place for each of the marks. -/
def HasPlaces (shell : Shell) (text : List Char) : Prop :=
  shell.substitution <:+: text ∧ countPlaces commandMark text = 1 ∧
    countPlaces templateMark text = 1

instance (shell : Shell) (text : List Char) : Decidable (shell.HasPlaces text) :=
  inferInstanceAs (Decidable (_ ∧ _))

theorem flatMap_toList {lines : List String} {runs : List (List Char)}
    (h : List.Forall₂ (fun line run => line = String.ofList run) lines runs) :
    lines.flatMap (fun line => line.toList ++ ['\n']) = runs.flatMap (· ++ ['\n']) := by
  induction h with
  | nil => rfl
  | cons hline _ ih => rw [List.flatMap_cons, List.flatMap_cons, ih, hline, String.toList_ofList]

theorem hasPlaces_of_runs {shell : Shell} {runs : List (List Char)}
    (hruns : List.Forall₂ (fun line run => line = String.ofList run) shell.snippetLines runs)
    (h : shell.HasPlaces (runs.flatMap (· ++ ['\n']))) : shell.HasPlaces shell.snippet := by
  rwa [snippet, flatMap_toList hruns]

theorem hasPlaces_snippet (shell : Shell) : shell.HasPlaces shell.snippet := by
  -- The characters of the lines are made out first, and once, because that takes long.
  cases shell with
  | bash =>
      apply hasPlaces_of_runs
      · repeat' constructor
      · decide +kernel
  | zsh =>
      apply hasPlaces_of_runs
      · repeat' constructor
      · decide +kernel

section

variable {shell : Shell} {command : List String} {before after : List Char}

theorem onlyPlace_commandMark (h : shell.snippet = before ++ shell.substitution ++ after) :
    OnlyPlace commandMark shell.snippet (before ++ opening)
      (shell.runPart ++ templateMark ++ (closing ++ after)) := by
  apply onlyPlace_of_countPlaces _ (hasPlaces_snippet shell).2.1
  rw [h, substitution]
  simp only [List.append_assoc]

theorem onlyPlace_templateMark (h : shell.snippet = before ++ shell.substitution ++ after) :
    OnlyPlace templateMark shell.snippet
      (before ++ opening ++ commandMark ++ shell.runPart) (closing ++ after) := by
  apply onlyPlace_of_countPlaces _ (hasPlaces_snippet shell).2.2
  rw [h, substitution]
  simp only [List.append_assoc]

/-- With the command in its place, there is still one place for the template. -/
theorem onlyPlace_templateMark_filled (h : shell.snippet = before ++ shell.substitution ++ after)
    (hcommand : ∀ word ∈ command, ¬ templateMark <:+: word.toList) :
    OnlyPlace templateMark
      (before ++ opening ++ (commandLine command).toList ++
        (shell.runPart ++ templateMark ++ (closing ++ after)))
      (before ++ opening ++ (commandLine command).toList ++ shell.runPart)
      (closing ++ after) := by
  have hharmless : ∀ c ∈ templateMark, isHarmless c = true := List.all_eq_true.mp (by decide)
  have hline := not_infix_commandLine (by decide) hharmless hcommand
  -- The command stands between a parenthesis and a blank, which the mark does not have.
  have hparenthesis : '(' ∉ templateMark := by decide
  have hblank : ' ' ∉ templateMark := by decide
  have hplace : OnlyPlace templateMark
      ((before ++ ['"', '$']) ++ '(' :: (commandMark ++
        ' ' :: ((Text.join " " shell.runTexts).toList ++
          ' ' :: (templateMark ++ (closing ++ after)))))
      ((before ++ ['"', '$']) ++ '(' :: (commandMark ++
        ' ' :: ((Text.join " " shell.runTexts).toList ++ [' ']))) (closing ++ after) := by
    have hsnippet := onlyPlace_templateMark h
    rw [(onlyPlace_commandMark h).eq] at hsnippet
    simpa [runPart, opening] using hsnippet
  simpa [runPart, opening] using hplace.exchange hparenthesis hblank hline

/-- Filled in, the snippet has the command line in its substitution, and else nothing is new. -/
theorem toList_initScript (h : shell.snippet = before ++ shell.substitution ++ after)
    (hcommand : ∀ word ∈ command, ¬ templateMark <:+: word.toList) (template : String) :
    (shell.initScript command template).toList =
      before ++ opening ++ shell.drawLine command template ++ (closing ++ after) := by
  have hfirst : replaceAll commandMark (commandLine command).toList shell.snippet = _ :=
    (onlyPlace_commandMark h).replaceAll_eq (by decide)
  have hsecond : replaceAll templateMark (quote template).toList _ = _ :=
    (onlyPlace_templateMark_filled h hcommand).replaceAll_eq (by decide)
  rw [initScript, String.toList_ofList, hfirst, hsecond, drawLine]
  simp only [List.append_assoc]

theorem exists_toList_initScript (shell : Shell) {command : List String} (template : String)
    (hcommand : ∀ word ∈ command, ¬ templateMark <:+: word.toList) :
    ∃ before after, (shell.initScript command template).toList =
      before ++ opening ++ shell.drawLine command template ++ (closing ++ after) := by
  obtain ⟨before, after, hsnippet⟩ := (hasPlaces_snippet shell).1
  exact ⟨before, after, toList_initScript hsnippet.symm hcommand template⟩

end

/-- The command is filled in where the one mark for it stands, and the template where the other one
stands, and nothing else is changed. Both are in one command substitution, which a shell reads as
the words of the command, the arguments of `run` and the template. -/
theorem initScript_filled (shell : Shell) (command : List String) (template : String)
    (hcommand : ∀ word ∈ command, ¬ templateMark <:+: word.toList) :
    ∃ before after,
      OnlyPlace commandMark shell.snippet (before ++ opening)
        (shell.runPart ++ templateMark ++ (closing ++ after)) ∧
      OnlyPlace templateMark shell.snippet (before ++ opening ++ commandMark ++ shell.runPart)
        (closing ++ after) ∧
      (shell.initScript command template).toList =
        before ++ opening ++ shell.drawLine command template ++ (closing ++ after) ∧
      ∀ values, words? values (shell.drawLine command template) =
        some (command ++ shell.runWords values ++ [template]) := by
  obtain ⟨before, after, hsnippet⟩ := (hasPlaces_snippet shell).1
  have hsnippet := hsnippet.symm
  exact ⟨before, after, onlyPlace_commandMark hsnippet, onlyPlace_templateMark hsnippet,
    toList_initScript hsnippet hcommand template, words?_drawLine shell command template⟩

/-- A template with both marks, quotes and a command substitution of its own. -/
theorem initScript_filled_marks :
    (∀ word ∈ ["/opt/my tools/promptline", "__CMD__"], ¬ templateMark <:+: word.toList) ∧
    ∃ before after,
      (bash.initScript ["/opt/my tools/promptline", "__CMD__"]
        "it's $(id) __CMD__ __TEMPLATE__").toList =
        before ++ opening ++ bash.drawLine ["/opt/my tools/promptline", "__CMD__"]
          "it's $(id) __CMD__ __TEMPLATE__" ++ (closing ++ after) ∧
      words? (fun name => "$" ++ name) (bash.drawLine ["/opt/my tools/promptline", "__CMD__"]
          "it's $(id) __CMD__ __TEMPLATE__") =
        some ["/opt/my tools/promptline", "__CMD__", "run", "--shell", "bash", "--status",
          "$exit_code", "--jobs", "$job_count", "--template",
          "it's $(id) __CMD__ __TEMPLATE__"] := by
  have hcommand : ∀ word ∈ ["/opt/my tools/promptline", "__CMD__"],
      ¬ templateMark <:+: word.toList := by decide
  obtain ⟨before, after, _, _, hscript, hwords⟩ := initScript_filled bash
    ["/opt/my tools/promptline", "__CMD__"] "it's $(id) __CMD__ __TEMPLATE__" hcommand
  exact ⟨hcommand, before, after, hscript, hwords _⟩

end ShellPrompt.Shell
