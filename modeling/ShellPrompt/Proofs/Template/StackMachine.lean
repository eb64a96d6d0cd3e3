import ShellPrompt.Proofs.Dictionary
import ShellPrompt.Proofs.Template.Nesting

/-! # The stack machine

A machine with a stack of open conditionals goes through the lexemes once. It accepts the sequences
that a tree is derived from, and the tree that it builds is the one that the grammar reads. -/

namespace ShellPrompt.Template

/-- A conditional that is still open: the tokens in front of it, what it asks, and its first branch
once that is complete. -/
structure Frame where
  before : List Token
  condition : Condition
  left : Option (List Token)

/-- The open conditionals, innermost first, and the tokens of the innermost branch so far. -/
structure Machine where
  frames : List Frame
  tokens : List Token

namespace Machine

/-- The machine before it has seen anything. -/
def initial : Machine := ⟨[], []⟩

/-- The conditional that a frame becomes when its last branch is complete. -/
def conditionalOf (frame : Frame) (branch : List Token) : Token :=
  match frame.left with
  | none => .conditional frame.condition branch none
  | some left => .conditional frame.condition left (some branch)

/-- What the machine does with a lexeme. No branch may be left empty. -/
def step (machine : Machine) (lexeme : Lexeme) : Option Machine :=
  match lexeme, machine.frames with
  | .header condition, frames => some ⟨⟨machine.tokens, condition, none⟩ :: frames, []⟩
  | .alternate, ⟨before, condition, none⟩ :: frames =>
    if machine.tokens.isEmpty then none
    else some ⟨⟨before, condition, some machine.tokens⟩ :: frames, []⟩
  | .close, frame :: frames =>
    if machine.tokens.isEmpty then none
    else some ⟨frames, frame.before ++ [conditionalOf frame machine.tokens]⟩
  | lexeme, frames => lexeme.token?.map fun token => ⟨frames, machine.tokens ++ [token]⟩

/-- What the machine does with lexemes one after another. -/
def run (machine : Machine) : List Lexeme → Option Machine
  | [] => some machine
  | lexeme :: lexemes => (machine.step lexeme).bind fun next => next.run lexemes

end Machine

/-- The tree of a sequence of lexemes: the tokens of a machine that has nothing left to close. -/
def build (lexemes : List Lexeme) : Option (List Token) :=
  match Machine.initial.run lexemes with
  | some ⟨[], token :: tokens⟩ => some (token :: tokens)
  | _ => none

namespace Machine

variable {machine next : Machine} {lexeme : Lexeme} {lexemes : List Lexeme}

theorem run_append (machine : Machine) (first second : List Lexeme) :
    machine.run (first ++ second) = (machine.run first).bind fun next => next.run second := by
  induction first generalizing machine with
  | nil => rfl
  | cons lexeme first ih =>
      rw [List.cons_append, run, run]
      cases machine.step lexeme with
      | none => rfl
      | some next => exact ih next

/-! ## One step -/

theorem step_of_token? {token : Token} (h : lexeme.token? = some token) :
    machine.step lexeme = some ⟨machine.frames, machine.tokens ++ [token]⟩ := by
  cases lexeme <;> simp_all [step, Lexeme.token?]

/-- Everything that a step can do. -/
theorem step_cases (h : machine.step lexeme = some next) :
    (∃ token, lexeme.token? = some token ∧
      next = ⟨machine.frames, machine.tokens ++ [token]⟩) ∨
    (∃ condition, lexeme = .header condition ∧
      next = ⟨⟨machine.tokens, condition, none⟩ :: machine.frames, []⟩) ∨
    (∃ before condition frames, lexeme = .alternate ∧ machine.tokens ≠ [] ∧
      machine.frames = ⟨before, condition, none⟩ :: frames ∧
      next = ⟨⟨before, condition, some machine.tokens⟩ :: frames, []⟩) ∨
    (∃ frame frames, lexeme = .close ∧ machine.tokens ≠ [] ∧ machine.frames = frame :: frames ∧
      next = ⟨frames, frame.before ++ [conditionalOf frame machine.tokens]⟩) := by
  unfold step at h
  split at h
  · exact .inr (.inl ⟨_, rfl, (Option.some.inj h).symm⟩)
  · rename_i before condition frames hframes
    split at h
    · cases h
    · rename_i hne
      exact .inr (.inr (.inl
        ⟨before, condition, frames, rfl, by simpa using hne, hframes, (Option.some.inj h).symm⟩))
  · rename_i frame frames hframes
    split at h
    · cases h
    · rename_i hne
      exact .inr (.inr (.inr
        ⟨frame, frames, rfl, by simpa using hne, hframes, (Option.some.inj h).symm⟩))
  · obtain ⟨token, htoken, hnext⟩ := Option.map_eq_some_iff.mp h
    exact .inl ⟨token, htoken, hnext.symm⟩

/-! ## The stack holds what has been passed -/

/-- The lexemes up to the innermost branch, for a stack of open conditionals. -/
inductive Opened : List Lexeme → List Frame → Prop where
  | nil : Opened [] []
  | header {opened frames lexemes before condition} :
      Opened opened frames → Derives lexemes before →
      Opened (opened ++ (lexemes ++ [.header condition])) (⟨before, condition, none⟩ :: frames)
  | alternate {opened frames lexemes before condition first left} (hleft : left ≠ []) :
      Opened opened frames → Derives lexemes before → Derives first left →
      Opened (opened ++ (lexemes ++ .header condition :: (first ++ [.alternate])))
        (⟨before, condition, some left⟩ :: frames)

/-- The lexemes that lead to a state of the machine. -/
def Passed (lexemes : List Lexeme) (machine : Machine) : Prop :=
  ∃ opened current, lexemes = opened ++ current ∧ Opened opened machine.frames ∧
    Derives current machine.tokens

theorem passed_initial : Passed [] initial := ⟨[], [], rfl, .nil, .nil⟩

theorem Passed.step (hpassed : Passed lexemes machine) (h : machine.step lexeme = some next) :
    Passed (lexemes ++ [lexeme]) next := by
  obtain ⟨opened, current, rfl, hopened, hcurrent⟩ := hpassed
  rcases step_cases h with ⟨token, htoken, rfl⟩ | ⟨condition, rfl, rfl⟩ |
    ⟨before, condition, frames, rfl, hne, hframes, rfl⟩ | ⟨frame, frames, rfl, hne, hframes, rfl⟩
  · exact ⟨opened, current ++ [lexeme], by simp, hopened, hcurrent.append (.leaf htoken .nil)⟩
  · exact ⟨opened ++ (current ++ [.header condition]), [], by simp, .header hopened hcurrent, .nil⟩
  · rw [hframes] at hopened
    cases hopened with
    | header hopened hbefore =>
        exact ⟨_, [], by simp, .alternate hne hopened hbefore hcurrent, .nil⟩
  · rw [hframes] at hopened
    cases hopened with
    | @header opened _ lexemes before condition hopened hbefore =>
        refine ⟨opened, lexemes ++ .header condition :: (current ++ .close :: []), by simp,
          hopened, ?_⟩
        exact hbefore.append (.single hne hcurrent .nil)
    | @alternate opened _ lexemes before condition first left hleft hopened hbefore hfirst =>
        refine ⟨opened, lexemes ++
          .header condition :: (first ++ .alternate :: (current ++ .close :: [])), by simp,
          hopened, ?_⟩
        exact hbefore.append (.double hleft hne hfirst hcurrent .nil)

theorem Passed.run {more : List Lexeme} (hpassed : Passed lexemes machine)
    (h : machine.run more = some next) : Passed (lexemes ++ more) next := by
  induction more generalizing lexemes machine with
  | nil =>
      obtain rfl := Option.some.inj h
      rwa [List.append_nil]
  | cons lexeme more ih =>
      obtain ⟨middle, hstep, hrun⟩ := Option.bind_eq_some_iff.mp h
      have hlexeme := hpassed.step hstep
      have hmore := ih hlexeme hrun
      rwa [List.append_assoc] at hmore

/-! ## Derived trees are built -/

/-- The machine goes through the lexemes of a tree and has the tree's tokens then. -/
theorem run_of_derives {tree : List Token} (h : Derives lexemes tree) (frames : List Frame)
    (before : List Token) : run ⟨frames, before⟩ lexemes = some ⟨frames, before ++ tree⟩ := by
  induction h generalizing frames before with
  | nil => simp [run]
  | leaf htoken _ ih =>
      rw [run, step_of_token? htoken, Option.bind_some, ih]
      simp
  | @single condition first left lexemes tokens hleft _ _ ihfirst ih =>
      have hclose : step ⟨⟨before, condition, none⟩ :: frames, left⟩ .close =
          some ⟨frames, before ++ [.conditional condition left none]⟩ := by
        simp [step, conditionalOf, hleft]
      rw [run, step, Option.bind_some, run_append, ihfirst, List.nil_append, Option.bind_some, run,
        hclose, Option.bind_some, ih]
      simp
  | @double condition first second left right lexemes tokens hleft hright _ _ _ ihfirst ihsecond
      ih =>
      have halternate : step ⟨⟨before, condition, none⟩ :: frames, left⟩ .alternate =
          some ⟨⟨before, condition, some left⟩ :: frames, []⟩ := by
        simp [step, hleft]
      have hclose : step ⟨⟨before, condition, some left⟩ :: frames, right⟩ .close =
          some ⟨frames, before ++ [.conditional condition left (some right)]⟩ := by
        simp [step, conditionalOf, hright]
      rw [run, step, Option.bind_some, run_append, ihfirst, List.nil_append, Option.bind_some, run,
        halternate, Option.bind_some, run_append, ihsecond, List.nil_append, Option.bind_some, run,
        hclose, Option.bind_some, ih]
      simp

/-- The machine has nothing left to close exactly behind the lexemes of a tree. -/
theorem run_initial_iff {tree : List Token} :
    initial.run lexemes = some ⟨[], tree⟩ ↔ Derives lexemes tree := by
  constructor
  · intro h
    obtain ⟨opened, current, rfl, hopened, hcurrent⟩ := passed_initial.run h
    cases hopened
    exact hcurrent
  · exact fun h => run_of_derives h [] []

end Machine

/-- The machine accepts what a tree is derived from, and builds that tree. -/
theorem build_eq_some_iff {lexemes : List Lexeme} {tree : List Token} :
    build lexemes = some tree ↔ tree ≠ [] ∧ Derives lexemes tree := by
  constructor
  · intro h
    unfold build at h
    split at h
    · rename_i token tokens hrun
      obtain rfl := Option.some.inj h
      exact ⟨List.cons_ne_nil _ _, Machine.run_initial_iff.mp hrun⟩
    · cases h
  · rintro ⟨hne, hderives⟩
    obtain ⟨token, tokens, rfl⟩ := List.exists_cons_of_ne_nil hne
    rw [build, Machine.run_initial_iff.mpr hderives]

/-! ## Open conditionals -/

/-- How many conditionals are open after some lexemes, none where the tag of a branch stands outside
of all conditionals. -/
def openAfter : Nat → List Lexeme → Option Nat
  | depth, [] => some depth
  | depth, .header _ :: lexemes => openAfter (depth + 1) lexemes
  | depth + 1, .alternate :: lexemes => openAfter (depth + 1) lexemes
  | depth + 1, .close :: lexemes => openAfter depth lexemes
  | 0, .alternate :: _ => none
  | 0, .close :: _ => none
  | depth, _ :: lexemes => openAfter depth lexemes

theorem openAfter_of_derives {lexemes : List Lexeme} {tree : List Token} (h : Derives lexemes tree)
    (depth : Nat) (more : List Lexeme) :
    openAfter depth (lexemes ++ more) = openAfter depth more := by
  induction h generalizing depth more with
  | nil => rfl
  | @leaf lexeme token lexemes tokens htoken _ ih =>
      cases lexeme <;> first | cases htoken; done | simpa [openAfter] using ih depth more
  | single hleft _ _ ihfirst ih =>
      simp [openAfter, ihfirst, ih]
  | double hleft hright _ _ _ ihfirst ihsecond ih =>
      simp [openAfter, ihfirst, ihsecond, ih]

/-- The grammar reads what the scanner and the stack machine read, and the same trees: those that
can be derived from the lexemes. Of the options of a component with one key the last counts. In
particular, a template is not read when its lexemes close or divide a conditional that is not open
or leave one open, nor when the scanner comes to a tag with a reserved word as its identifier. -/
theorem parse_eq_scan_build (styles : StyleTable) (template : String) :
    (parse styles template).toOption = (scan styles template.toList).bind build ∧
    (∀ tree, parse styles template = .ok tree ↔
      ∃ lexemes, scan styles template.toList = some lexemes ∧ tree ≠ [] ∧ Derives lexemes tree) ∧
    (∀ name pairs, ∃ options,
      (Lexeme.component name pairs).token? = some (.component name options) ∧
      ∀ key, options.get? key = (pairs.reverse.find? fun pair => pair.1 = key).map Prod.snd) ∧
    (∀ lexemes, scan styles template.toList = some lexemes → openAfter 0 lexemes ≠ some 0 →
      (parse styles template).toOption = none) ∧
    ∀ lexemes body rest, Scans styles template.toList lexemes ('{' :: (body ++ '}' :: rest)) →
      '}' ∉ body → NamesReserved styles body → (parse styles template).toOption = none := by
  have hparse : (parse styles template).toOption = (scan styles template.toList).bind build := by
    apply Option.ext
    intro tree
    have hok : (parse styles template).toOption = some tree ↔ parse styles template = .ok tree := by
      cases parse styles template <;> simp [Except.toOption]
    rw [hok, parse_eq_ok_iff_derives, Option.bind_eq_some_iff]
    simp only [build_eq_some_iff]
  refine ⟨hparse, fun tree => parse_eq_ok_iff_derives, ?_, ?_, ?_⟩
  · intro name pairs
    exact ⟨_, rfl, Dictionary.get?_ofPairs pairs⟩
  · intro lexemes hscan hopen
    rw [hparse, hscan, Option.bind_some]
    apply Option.eq_none_iff_forall_ne_some.mpr
    intro tree hbuild
    have hderives := (build_eq_some_iff.mp hbuild).2
    have hclosed := openAfter_of_derives hderives 0 []
    rw [List.append_nil] at hclosed
    exact hopen hclosed
  · intro lexemes body rest hscans hbody hreserved
    have hnone : scan styles ('{' :: (body ++ '}' :: rest)) = none :=
      scan_of_unclassified hreserved.head?_ne hbody (tag?_eq_none_of_namesReserved hreserved)
    rw [hparse, hscans.scan_eq, hnone]
    rfl

end ShellPrompt.Template
