import ShellPrompt.CommandLine.Program
import ShellPrompt.Proofs.CommandLine.Arguments
import ShellPrompt.Proofs.Config.SameFiles
import ShellPrompt.Proofs.Number.Decimal
import ShellPrompt.Proofs.Shell.InitScript

/-! # The command in the snippet

A snippet is written only if its template can be read. Before each command line it has the program
draw a prompt from that template, in the directory that is the current one by then. -/

namespace ShellPrompt.CommandLine

/-! ## Reading the arguments of the command -/

/-- The arguments that the snippet of a shell gives to the program, which it tells the last exit
status, the number of jobs and the template. -/
def drawArguments (shell : Shell) (status : Nat) (jobs template : String) : List String :=
  ["run", "--shell", shell.name, "--status", toString status, "--jobs", jobs,
    "--template", template]

/-- The options of `run` that these arguments are to stand for. -/
def drawOptions (shell : Shell) (status : Nat) (jobs template : String) : RunOptions :=
  { shell, jobs, status, template := some template }

/-- A text that is taken for an option where it should be the value of one. It begins with a dash,
and it may mean an option of `run`, or is neither a negative number nor a text with a space, or may
mean several of the options in front of the command. -/
def TakenForOption (text : String) : Prop :=
  text.toList.head? = some '-' ∧ text ≠ "-" ∧
    (abbreviations runForms text.toList ≠ [] ∨
      (isNegativeNumber text.toList = false ∧ ' ' ∉ text.toList) ∨
      shapeOf globalForms text = .ambiguous)

theorem regular_runForms : Regular runForms := by
  have hall : ((spellings runForms).all fun entry => isSpelling entry.1.toList) = true := by
    decide
  exact List.all_eq_true.mp hall

theorem isArgument_run_iff (text : String) :
    isArgument (text, shapeOf runForms text) = true ↔
      ¬ (text.toList.head? = some '-' ∧ text ≠ "-" ∧
        (abbreviations runForms text.toList ≠ [] ∨
          (isNegativeNumber text.toList = false ∧ ' ' ∉ text.toList))) := by
  rw [isArgument_shapeOf_iff regular_runForms (by decide)]
  cases isNegativeNumber text.toList <;> grind

/-- A number does not begin with a dash. -/
theorem head?_toString (n : Nat) : (toString n).toList.head? ≠ some '-' := by
  intro hhead
  have htext : (toString n).toList = Nat.toDigits 10 n := Nat.toList_repr ..
  rw [htext] at hhead
  have hdigit := Nat.isDigit_of_mem_toDigits (by decide) (by decide) (List.mem_of_mem_head? hhead)
  cases hdigit

theorem head?_name (shell : Shell) : shell.name.toList.head? ≠ some '-' := by
  cases shell <;> decide

section

variable {shell : Shell} {status : Nat} {jobs template : String}

/-- What the arguments behind `run` say. -/
theorem events_draw (hjobs : jobs.toList.head? ≠ some '-') :
    events runForms ([] : List (Unit × OperandForm))
        (drawArguments shell status jobs template).tail =
      if isAmbiguous (template, shapeOf runForms template) then [.misuse]
      else .option .shell (some shell.name) :: .option .status (some (toString status)) ::
        .option .jobs (some jobs) ::
          if isArgument (template, shapeOf runForms template) then
            [.option .template (some template)]
          else .misuse :: walk runForms [] [(template, shapeOf runForms template)] := by
  rw [events_eq, drawArguments, List.tail_cons,
    any_isAmbiguous_value rfl (by decide) (by decide) (head?_name shell),
    any_isAmbiguous_value rfl (by decide) (by decide) (head?_toString status),
    any_isAmbiguous_value rfl (by decide) (by decide) hjobs,
    any_isAmbiguous_last rfl (by decide) (by decide),
    walk_shapes_value rfl rfl (by decide) (by decide) (head?_name shell),
    walk_shapes_value rfl rfl (by decide) (by decide) (head?_toString status),
    walk_shapes_value rfl rfl (by decide) (by decide) hjobs,
    walk_shapes_last rfl rfl (by decide) (by decide)]

/-- The first events are taken note of, unless the status has too many digits. -/
theorem foldlM_add_draw (rest : List (Event RunKey Unit)) :
    (.option .shell (some shell.name) :: .option .status (some (toString status)) ::
        .option .jobs (some jobs) :: rest).foldlM RunDraft.add {} =
      if status < 10 ^ Numeral.maxDigits then
        rest.foldlM RunDraft.add { shell := some shell, status, jobs }
      else .error .misuse := by
  have hshell : Shell.ofName? shell.name = some shell := by
    cases shell <;> decide
  have hstatus := Numeral.read_toString status
  simp only [List.foldlM_cons, RunDraft.add, Option.bind_some, hshell, hstatus]
  by_cases hlimit : status < 10 ^ Numeral.maxDigits
  · rw [if_pos hlimit, if_pos hlimit]
    rfl
  · rw [if_neg hlimit, if_neg hlimit]
    rfl

theorem runOptions_eq_ok (hjobs : jobs.toList.head? ≠ some '-')
    (hstatus : status < 10 ^ Numeral.maxDigits)
    (htemplate : isArgument (template, shapeOf runForms template) = true) :
    runOptions (drawArguments shell status jobs template).tail =
      .ok (drawOptions shell status jobs template, false) := by
  rw [runOptions, events_draw hjobs, isAmbiguous_of_isArgument htemplate, if_neg Bool.false_ne_true,
    if_pos htemplate, foldlM_add_draw, if_pos hstatus]
  rfl

theorem runOptions_eq_misuse (hjobs : jobs.toList.head? ≠ some '-')
    (h : 10 ^ Numeral.maxDigits ≤ status ∨
      isArgument (template, shapeOf runForms template) = false) :
    runOptions (drawArguments shell status jobs template).tail = .error .misuse := by
  rw [runOptions, events_draw hjobs]
  by_cases hambiguous : isAmbiguous (template, shapeOf runForms template) = true
  · rw [if_pos hambiguous]
    rfl
  · rw [if_neg hambiguous, foldlM_add_draw]
    by_cases hstatus : status < 10 ^ Numeral.maxDigits
    · rw [if_pos hstatus, h.resolve_left (by omega)]
      rfl
    · rw [if_neg hstatus]
      rfl

/-! ## Reading all arguments -/

/-- Of the arguments only the template may be ambiguous in front of the command. -/
theorem events_global (hjobs : jobs.toList.head? ≠ some '-') :
    events globalForms [((), .remainder)] (drawArguments shell status jobs template) =
      if isAmbiguous (template, shapeOf globalForms template) then [.misuse]
      else [.operand () (drawArguments shell status jobs template)] := by
  have hplain : ∀ spelling ∈ ["--shell", "--status", "--jobs", "--template"],
      isAmbiguous (spelling, shapeOf globalForms spelling) = false := by
    decide
  have hvalue : ∀ text : String, isAmbiguous ((text, .argument) : Shaped GlobalKey) = false :=
    fun _ => rfl
  have hany : (shapes globalForms (drawArguments shell status jobs template).tail).any isAmbiguous =
      isAmbiguous (template, shapeOf globalForms template) := by
    rw [drawArguments, List.tail_cons, shapes_cons (by decide),
      shapes_cons_of_head? (head?_name shell), shapes_cons (by decide),
      shapes_cons_of_head? (head?_toString status), shapes_cons (by decide),
      shapes_cons_of_head? hjobs, shapes_cons (by decide), shapes_singleton]
    simp [hplain, hvalue]
  rw [← hany]
  exact events_remainder () (by decide) _

theorem takenForOption_iff {text : String} : TakenForOption text ↔
    isArgument (text, shapeOf runForms text) = false ∨
      isAmbiguous (text, shapeOf globalForms text) = true := by
  rw [isAmbiguous_iff, ← Bool.not_eq_true, isArgument_run_iff, not_not, TakenForOption]
  constructor
  · rintro ⟨hhead, hdash, hmeans | hplain | hambiguous⟩
    · exact .inl ⟨hhead, hdash, .inl hmeans⟩
    · exact .inl ⟨hhead, hdash, .inr hplain⟩
    · exact .inr hambiguous
  · rintro (⟨hhead, hdash, hmeans | hplain⟩ | hambiguous)
    · exact ⟨hhead, hdash, .inl hmeans⟩
    · exact ⟨hhead, hdash, .inr (.inl hplain)⟩
    · have hhead : text.toList.head? = some '-' := by
        by_contra hhead
        rw [shapeOf_of_head? hhead] at hambiguous
        cases hambiguous
      have hdash : text ≠ "-" := by
        intro hdash
        rw [hdash] at hambiguous
        cases hambiguous
      exact ⟨hhead, hdash, .inr (.inr hambiguous)⟩

/-- The arguments are understood if the template is not taken for an option and the status does not
have too many digits. -/
theorem ofArguments_draw_eq_ok (hjobs : jobs.toList.head? ≠ some '-')
    (hstatus : status < 10 ^ Numeral.maxDigits) (htemplate : ¬ TakenForOption template) :
    Invocation.ofArguments (drawArguments shell status jobs template) =
      .ok { command := .run (drawOptions shell status jobs template) } := by
  rw [takenForOption_iff, not_or, Bool.not_eq_false, Bool.not_eq_true] at htemplate
  have hcommand : commandOf (drawArguments shell status jobs template) =
      .ok (.run (drawOptions shell status jobs template), false) := by
    have hrun : runOptions (drawArguments shell status jobs template).tail = _ :=
      runOptions_eq_ok hjobs hstatus htemplate.1
    rw [drawArguments, List.tail_cons] at hrun
    rw [drawArguments, commandOf, hrun]
    rfl
  rw [Invocation.ofArguments, events_global hjobs, htemplate.2, if_neg Bool.false_ne_true,
    List.foldlM_cons, Draft.add, hcommand]
  rfl

theorem ofArguments_draw_eq_misuse (hjobs : jobs.toList.head? ≠ some '-')
    (h : 10 ^ Numeral.maxDigits ≤ status ∨ TakenForOption template) :
    Invocation.ofArguments (drawArguments shell status jobs template) = .error .misuse := by
  rw [Invocation.ofArguments, events_global hjobs]
  by_cases hambiguous : isAmbiguous (template, shapeOf globalForms template) = true
  · rw [if_pos hambiguous]
    rfl
  · have hcommand : commandOf (drawArguments shell status jobs template) = .error .misuse := by
      have hrun : runOptions (drawArguments shell status jobs template).tail = _ :=
        runOptions_eq_misuse hjobs
          (h.imp_right fun htaken => (takenForOption_iff.mp htaken).resolve_right hambiguous)
      rw [drawArguments, List.tail_cons] at hrun
      rw [drawArguments, commandOf, hrun]
      rfl
    rw [if_neg hambiguous, List.foldlM_cons, Draft.add, hcommand]
    rfl

end

/-! ## Writing the snippet and drawing from it -/

section

variable {config : Config} {template : Option String}

theorem orElseText_orElseText (text : Option String) (other : String) :
    orElseText (some (orElseText text other)) other = orElseText text other := by
  cases text with
  | none => exact ite_self other
  | some text => by_cases h : text = "" <;> simp [orElseText, h]

theorem exists_parse_of_readTemplate {styles : StyleTable} {tokens : List Token}
    (h : readTemplate config template = .ok (styles, tokens)) : config.styleTable = .ok styles ∧
      Template.parse styles (orElseText template config.template) = .ok tokens := by
  rw [readTemplate] at h
  cases htable : config.styleTable with
  | error error =>
      rw [htable] at h
      cases h
  | ok table =>
      cases hparse : Template.parse table (orElseText template config.template) with
      | error error =>
          simp only [htable, Except.mapError, Bind.bind, Except.bind, hparse] at h
          cases h
      | ok parsed =>
          simp only [htable, Except.mapError, Bind.bind, Except.bind, hparse] at h
          cases h
          exact ⟨rfl, hparse⟩

theorem readTemplate_eq_error_iff {error : Template.ParseError} :
    readTemplate config template = .error (.template error) ↔
      ∃ styles, config.styleTable = .ok styles ∧
        Template.parse styles (orElseText template config.template) = .error error := by
  rw [readTemplate]
  cases htable : config.styleTable with
  | error error => simp [Except.mapError, Bind.bind, Except.bind]
  | ok table =>
      cases hparse : Template.parse table (orElseText template config.template) <;>
        simp [Except.mapError, Bind.bind, Except.bind, hparse, Pure.pure, Except.pure]

end

section

variable {around : Surroundings} {arguments : List String}

/-- Where the snippet is written, its template has been read. -/
theorem exists_config_of_written {shell : Shell} {template : Option String}
    {configFile configDirectory : Option Path} {output : String}
    (hinit : Invocation.ofArguments arguments =
      .ok ⟨.init shell template, configFile, configDirectory⟩)
    (hwritten : (program around arguments).1 = .written output) :
    ∃ config styles tokens,
      Config.load around.files around.configHome configFile configDirectory = .ok config ∧
      config.styleTable = .ok styles ∧
      Template.parse styles (orElseText template config.template) = .ok tokens ∧
      output = shell.initScript around.executable (orElseText template config.template) := by
  rw [program, hinit] at hwritten
  dsimp only [perform] at hwritten
  cases hload : Config.load around.files around.configHome configFile configDirectory with
  | error error =>
      rw [hload] at hwritten
      cases hwritten
  | ok config =>
      rw [hload] at hwritten
      dsimp only [writeSnippet] at hwritten
      cases hread : readTemplate config template with
      | error failure =>
          rw [hread] at hwritten
          cases hwritten
      | ok read =>
          obtain ⟨styles, tokens⟩ := read
          obtain ⟨htable, hparse⟩ := exists_parse_of_readTemplate hread
          rw [hread] at hwritten
          cases hwritten
          exact ⟨config, styles, tokens, rfl, htable, hparse, rfl⟩

/-- A prompt fails because of its template only if that cannot be read. -/
theorem program_run_eq_failed_iff {options : RunOptions} {error : Template.ParseError}
    (hrun : Invocation.ofArguments arguments = .ok { command := .run options }) :
    (program around arguments).1 = .failed (.template error) ↔
      ∃ config styles, Config.load around.files around.configHome none none = .ok config ∧
        config.styleTable = .ok styles ∧
        Template.parse styles (orElseText options.template config.template) = .error error := by
  rw [program, hrun]
  dsimp only [perform]
  cases hload : Config.load around.files around.configHome none none with
  | error cause => simp
  | ok config =>
      simp only [Except.ok.injEq, exists_and_left, exists_eq_left']
      rw [← readTemplate_eq_error_iff]
      dsimp only [drawPrompt]
      cases readTemplate config options.template with
      | error failure => simp
      | ok read =>
          dsimp only
          cases ((contextOf around options config read.1).render read.2 {}).1 <;>
            simp [Except.mapError]

theorem program_run_ne_refused {options : RunOptions} (refusal : Refusal)
    (hrun : Invocation.ofArguments arguments = .ok { command := .run options }) :
    (program around arguments).1 ≠ .refused refusal := by
  rw [program, hrun]
  dsimp only
  split <;> simp

/-- What may come of a prompt that a snippet has drawn from its template: the arguments are refused
exactly if the template is taken for an option or the status has too many digits, and otherwise the
template is not understood exactly if it cannot be read with the configuration that is not named. -/
structure DrawnFrom (around : Surroundings) (template : String) (status : Nat) (outcome : Outcome) :
    Prop where
  refused_iff : ∀ refusal, outcome = .refused refusal ↔
    refusal = .misuse ∧ (10 ^ Numeral.maxDigits ≤ status ∨ TakenForOption template)
  unread_iff : ∀ error, outcome = .failed (.template error) ↔
    ¬ (10 ^ Numeral.maxDigits ≤ status ∨ TakenForOption template) ∧
      ∃ config styles, Config.load around.files around.configHome none none = .ok config ∧
        config.styleTable = .ok styles ∧
        Template.parse styles (orElseText (some template) config.template) = .error error

theorem drawnFrom_program (around : Surroundings) (shell : Shell) (status : Nat) {jobs : String}
    (template : String) (hjobs : jobs.toList.head? ≠ some '-') :
    DrawnFrom around template status
      (program around (drawArguments shell status jobs template)).1 := by
  by_cases h : 10 ^ Numeral.maxDigits ≤ status ∨ TakenForOption template
  · have hprogram : (program around (drawArguments shell status jobs template)).1 =
        .refused .misuse := by
      rw [program, ofArguments_draw_eq_misuse hjobs h]
    rw [hprogram]
    refine ⟨fun refusal => ?_, fun error => ?_⟩
    · simp [h, eq_comm]
    · simp [h]
  · obtain ⟨hstatus, htemplate⟩ := not_or.mp h
    have hrun : Invocation.ofArguments (drawArguments shell status jobs template) = _ :=
      ofArguments_draw_eq_ok hjobs (Nat.lt_of_not_le hstatus) htemplate
    refine ⟨fun refusal => ?_, fun error => ?_⟩
    · simp [program_run_ne_refused refusal hrun, h]
    · rw [program_run_eq_failed_iff hrun, and_iff_right h]
      rfl

/-- What is passed where a snippet runs the program: it does so in a command substitution, and a
shell that knows the exit status and the number of jobs reads the words there as the command and
the arguments that draw a prompt from the template. -/
structure Passes (snippet : String) (shell : Shell) (command : List String) (template : String) :
    Prop where
  substituted : (∀ word ∈ command, ¬ Shell.templateMark <:+: word.toList) →
    ∃ before after, snippet.toList =
      before ++ Shell.opening ++ shell.drawLine command template ++ (Shell.closing ++ after)
  words?_eq : ∀ (values : String → String) (status : Nat) (jobs : String),
    values "exit_code" = toString status → values "job_count" = jobs →
    Shell.words? values (shell.drawLine command template) =
      some (command ++ drawArguments shell status jobs template)

/-- The arguments are as in `drawArguments` if the parameters are what the snippet sets them to. -/
theorem words?_drawLine_eq_drawArguments {values : String → String} {status : Nat} {jobs : String}
    (hstatus : values "exit_code" = toString status) (hjobs : values "job_count" = jobs)
    (shell : Shell) (command : List String) (template : String) :
    Shell.words? values (shell.drawLine command template) =
      some (command ++ drawArguments shell status jobs template) := by
  rw [Shell.words?_drawLine, Shell.runWords, hstatus, hjobs, List.append_assoc]
  rfl

theorem passes_initScript (shell : Shell) (command : List String) (template : String) :
    Passes (shell.initScript command template) shell command template where
  substituted := shell.exists_toList_initScript template
  words?_eq _ _ _ hstatus hjobs :=
    words?_drawLine_eq_drawArguments hstatus hjobs shell command template

/-- Where a snippet is written, its template can be read, and it is what the snippet passes. When it
is drawn from, on the same files, the template is refused if it is taken for an option, and it is
read with the configuration that is not named: so it is always understood if the snippet was written
with that one. -/
theorem program_of_written {later : Surroundings} {shell : Shell} {template : Option String}
    {configFile configDirectory : Option Path} {output : String}
    (hinit : Invocation.ofArguments arguments =
      .ok ⟨.init shell template, configFile, configDirectory⟩)
    (hwritten : (program around arguments).1 = .written output)
    (hfiles : around.files.SameFiles later.files)
    (hhome : around.configHome.SameFrom around.files later.files)
    (hlater : later.configHome = around.configHome) :
    ∃ config, Config.load around.files around.configHome configFile configDirectory = .ok config ∧
      output = shell.initScript around.executable (orElseText template config.template) ∧
      Passes output shell around.executable (orElseText template config.template) ∧
      ∀ (status : Nat) (jobs : String), jobs.toList.head? ≠ some '-' →
        DrawnFrom around (orElseText template config.template) status
          (program later (drawArguments shell status jobs
            (orElseText template config.template))).1 ∧
        (configFile = none → configDirectory = none → ∀ error,
          (program later (drawArguments shell status jobs
            (orElseText template config.template))).1 ≠ .failed (.template error)) := by
  obtain ⟨config, styles, tokens, hload, htable, hparse, houtput⟩ :=
    exists_config_of_written hinit hwritten
  have hdrawn : ∀ (status : Nat) (jobs : String), jobs.toList.head? ≠ some '-' →
      DrawnFrom around (orElseText template config.template) status
        (program later (drawArguments shell status jobs
          (orElseText template config.template))).1 := by
    intro status jobs hjobs
    have hprogram := drawnFrom_program later shell status (orElseText template config.template) hjobs
    refine ⟨hprogram.refused_iff, ?_⟩
    rw [Config.load_of_sameFiles hfiles hhome, ← hlater]
    exact hprogram.unread_iff
  refine ⟨config, hload, houtput, houtput ▸ passes_initScript _ _ _,
    fun status jobs hjobs => ⟨hdrawn status jobs hjobs, ?_⟩⟩
  rintro rfl rfl error hfailed
  obtain ⟨_, other, table, hother, hother_table, herror⟩ :=
    ((hdrawn status jobs hjobs).unread_iff error).mp hfailed
  -- The configuration is the same, and so is the template, even if it is empty.
  obtain rfl : config = other := Except.ok.inj (hload.symm.trans hother)
  obtain rfl : styles = table := Except.ok.inj (htable.symm.trans hother_table)
  rw [orElseText_orElseText, hparse] at herror
  cases herror

end

/-- A home directory with some files in it, and git that does not answer. -/
def homeWith (files : List (List String × FileEntry)) : Surroundings where
  files := ⟨files, ["home", "alice"]⟩
  configHome := .ofString "/home/alice"
  currentDir := .ofString "/home/alice"
  homeDir := .ofString "/home/alice"
  environ := .empty
  git := fun _ _ => .timedOut
  hostName := "host"
  login := none
  executable := ["promptline"]

/-- What the program writes, if it does. -/
def Outcome.output? : Outcome → Option String
  | .written output => some output
  | _ => none

theorem Outcome.exists_written {outcome : Outcome} (h : outcome.output?.isSome = true) :
    ∃ output, outcome = .written output := by
  cases outcome with
  | written output => exact ⟨output, rfl⟩
  | _ => cases h

theorem not_limit_le_zero : ¬ 10 ^ Numeral.maxDigits ≤ 0 :=
  Nat.not_le.mpr (Nat.pow_pos (by decide))

/-- The home directory and another one, with nothing in them. -/
def twoDirectories : List (List String × FileEntry) :=
  [(["home", "alice"], .directory), (["tmp"], .directory)]

/-- The same as at home, but in the other directory. -/
def elsewhere : Surroundings :=
  { homeWith twoDirectories with
    files := ⟨twoDirectories, ["tmp"]⟩
    currentDir := .ofString "/tmp" }

theorem program_of_written_elsewhere :
    Invocation.ofArguments ["init", "zsh", "> "] = .ok ⟨.init .zsh (some "> "), none, none⟩ ∧
    (homeWith twoDirectories).files.SameFiles elsewhere.files ∧
    (homeWith twoDirectories).configHome.SameFrom (homeWith twoDirectories).files
      elsewhere.files ∧
    (∃ output, (program (homeWith twoDirectories) ["init", "zsh", "> "]).1 = .written output ∧
      Passes output .zsh ["promptline"] "> ") ∧
    (∀ refusal, (program elsewhere (drawArguments .zsh 0 "__empty__" "> ")).1 ≠
      .refused refusal) ∧
    ∀ error, (program elsewhere (drawArguments .zsh 0 "__empty__" "> ")).1 ≠
      .failed (.template error) := by
  have hinit : Invocation.ofArguments ["init", "zsh", "> "] =
    .ok ⟨.init .zsh (some "> "), none, none⟩ := by decide +kernel
  have hfiles : (homeWith twoDirectories).files.SameFiles elsewhere.files :=
    FileTree.sameFiles_of_listed rfl (by decide) (by decide)
  have hhome : (homeWith twoDirectories).configHome.SameFrom (homeWith twoDirectories).files
    elsewhere.files := .inl (by decide)
  obtain ⟨output, hwritten⟩ : ∃ output,
      (program (homeWith twoDirectories) ["init", "zsh", "> "]).1 = .written output :=
    Outcome.exists_written (by decide +kernel)
  obtain ⟨config, _, _, hpasses, hdrawn⟩ := program_of_written hinit hwritten hfiles hhome rfl
  obtain ⟨hprompt, hread⟩ := hdrawn 0 "__empty__" (by decide)
  refine ⟨hinit, hfiles, hhome, ⟨output, hwritten, hpasses⟩, fun refusal hrefused => ?_,
    hread rfl rfl⟩
  rcases ((hprompt.refused_iff refusal).mp hrefused).2 with hlimit | ⟨hhead, _⟩
  · exact not_limit_le_zero hlimit
  · have hplain : "> ".toList.head? ≠ some '-' := by decide
    exact hplain hhead

/-- A main configuration file with an arrow as the template. -/
def arrowFile : List String × FileEntry :=
  (["home", "alice", ".config", "promptline", "config.yaml"], .file "template: '->'\n" false)

/-- A file, which has to be named, with a style of its own. -/
def warnFile : List String × FileEntry :=
  (["home", "alice", "c.yaml"], .file "styles: \x7bwarn: bold\x7d\n" false)

/-- The snippet passes an arrow so that it is taken for an option, and it does not pass on where the
configuration is. So a snippet that is written may fail at each prompt. -/
theorem program_draw_arrow :
    ((∃ output, (program (homeWith [arrowFile]) ["init", "bash"]).1 = .written output ∧
        output = Shell.bash.initScript ["promptline"] "->") ∧
      (program (homeWith [arrowFile]) (drawArguments .bash 0 "__empty__" "->")).1 =
        .refused .misuse) ∧
    (∃ output, (program (homeWith [warnFile])
        ["--config", "c.yaml", "init", "bash", "\x7bwarn\x7d!"]).1 = .written output ∧
        output = Shell.bash.initScript ["promptline"] "\x7bwarn\x7d!") ∧
      ∃ error, (program (homeWith [warnFile])
        (drawArguments .bash 0 "__empty__" "\x7bwarn\x7d!")).1 = .failed (.template error) := by
  refine ⟨⟨?_, ?_⟩, ?_, ?_⟩
  · have hinit : Invocation.ofArguments ["init", "bash"] =
      .ok { command := .init .bash none } := by decide +kernel
    have htemplate : (Config.load (homeWith [arrowFile]).files (homeWith [arrowFile]).configHome
      none none).toOption.map Config.template = some "->" := by decide +kernel
    obtain ⟨output, hwritten⟩ : ∃ output,
        (program (homeWith [arrowFile]) ["init", "bash"]).1 = .written output :=
      Outcome.exists_written (by decide +kernel)
    obtain ⟨config, _, _, hload, _, _, rfl⟩ := exists_config_of_written hinit hwritten
    rw [hload] at htemplate
    refine ⟨_, hwritten, ?_⟩
    rw [orElseText, Option.some.inj htemplate]
    rfl
  · rw [program, ofArguments_draw_eq_misuse (by decide) (.inr ⟨by decide, by decide,
      .inr (.inl ⟨by decide, by decide⟩)⟩)]
  · have hinit : Invocation.ofArguments ["--config", "c.yaml", "init", "bash", "\x7bwarn\x7d!"] =
      .ok ⟨.init .bash (some "\x7bwarn\x7d!"), some (.ofString "c.yaml"), none⟩ := by
        decide +kernel
    obtain ⟨output, hwritten⟩ : ∃ output, (program (homeWith [warnFile])
        ["--config", "c.yaml", "init", "bash", "\x7bwarn\x7d!"]).1 = .written output :=
      Outcome.exists_written (by decide +kernel)
    obtain ⟨config, _, _, _, _, _, rfl⟩ := exists_config_of_written hinit hwritten
    exact ⟨_, hwritten, rfl⟩
  · have hunread : (match (program (homeWith [warnFile])
        (drawArguments .bash 0 "__empty__" "\x7bwarn\x7d!")).1 with
      | .failed (.template _) => true
      | _ => false) = true := by decide +kernel
    split at hunread
    · exact ⟨_, ‹_›⟩
    · cases hunread

end ShellPrompt.CommandLine
