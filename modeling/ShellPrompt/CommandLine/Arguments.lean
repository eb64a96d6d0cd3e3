import ShellPrompt.Number.Integer
import ShellPrompt.Text.Split

/-!
Arguments of a command line, sorted into options and operands. An option is written with all its
characters or, if it begins with two dashes, with so many that no other option begins so. Its value
stands behind it or behind an equals sign; options of one letter may share a dash. After `--` all
arguments are operands.
-/

namespace ShellPrompt.CommandLine

/-- An option: its spellings, and whether it takes a value. -/
structure OptionForm (κ : Type) where
  key : κ
  spellings : List String
  takesValue : Bool

/-- How many arguments an operand takes. -/
inductive OperandForm where
  /-- one argument -/
  | single
  /-- one argument or none -/
  | optional
  /-- one argument and all that follow it -/
  | remainder
deriving DecidableEq

/-- What a command line says, in order. -/
inductive Event (κ ω : Type) where
  | option (key : κ) (value : Option String)
  | operand (key : ω) (values : List String)
  | unknown (argument : String)
  /-- the rest cannot be understood -/
  | misuse

/-- An argument that may be an option: the option if it is known, its spelling, whether an equals
sign stands in front of the value, and the value that is written in the same argument. -/
structure Candidate (κ : Type) where
  form : Option (OptionForm κ)
  spelling : String
  equals : Bool := false
  value : Option String := none

/-- What an argument looks like. -/
inductive Shape (κ : Type) where
  | argument
  | separator
  | option (candidate : Candidate κ)
  | ambiguous

/-- The options of a command, each spelling by itself. -/
def spellings {κ : Type} (forms : List (OptionForm κ)) : List (String × OptionForm κ) :=
  forms.flatMap fun form => form.spellings.map (·, form)

/-- The option of a spelling. -/
def spelled? {κ : Type} (forms : List (OptionForm κ)) (spelling : String) :
    Option (OptionForm κ) := (spellings forms).lookup spelling

/-- A text up to the first equals sign, and what is behind it. -/
def splitEquals (text : List Char) : List Char × Option (List Char) :=
  match text.dropWhile (· != '=') with
  | _ :: value => (text.takeWhile (· != '='), some value)
  | [] => (text, none)

/-- Whether a text is a negative number, with or without a point. -/
def isNegativeNumber (text : List Char) : Bool :=
  let line := if text.getLast? = some '\n' then text.dropLast else text
  let isDigit := fun c => (Text.digitValue? c).isSome
  match line with
  | '-' :: body =>
    (!body.isEmpty && body.all isDigit) ||
      match body.dropWhile isDigit with
      | '.' :: digits => !digits.isEmpty && digits.all isDigit
      | _ => false
  | _ => false

/-- The options that an argument may mean which is no complete spelling. -/
def abbreviations {κ : Type} (forms : List (OptionForm κ)) (text : List Char) :
    List (Candidate κ) :=
  match text with
  | '-' :: '-' :: _ =>
    let (start, value) := splitEquals text
    ((spellings forms).filter fun (spelling, _) => start.isPrefixOf spelling.toList).map
      fun (spelling, form) => ⟨some form, spelling, value.isSome, value.map String.ofList⟩
  | _ =>
    (spellings forms).filterMap fun (spelling, form) =>
      if spelling.toList = text.take 2 then
        some ⟨some form, spelling, false, some (String.ofList (text.drop 2))⟩
      else if text.isPrefixOf spelling.toList then some ⟨some form, spelling, false, none⟩
      else none

/-- What an argument looks like. A negative number, and a text with a space, is no option. -/
def shapeOf {κ : Type} (forms : List (OptionForm κ)) (argument : String) : Shape κ :=
  let text := argument.toList
  if argument = "--" then .separator
  else if text.head? ≠ some '-' then .argument
  else match spelled? forms argument with
    | some form => .option ⟨some form, argument, false, none⟩
    | none =>
      if text.length = 1 then .argument
      else
        let (start, value) := splitEquals text
        match value, spelled? forms (String.ofList start) with
        | some value, some form =>
          .option ⟨some form, String.ofList start, true, some (String.ofList value)⟩
        | _, _ =>
          match abbreviations forms text with
          | [candidate] => .option candidate
          | _ :: _ :: _ => .ambiguous
          | [] =>
            if isNegativeNumber text || text.contains ' ' then .argument
            else .option ⟨none, argument, false, none⟩

/-- An argument with its shape. -/
abbrev Shaped (κ : Type) := String × Shape κ

/-- The arguments with their shapes. -/
def shapes {κ : Type} (forms : List (OptionForm κ)) : List String → List (Shaped κ)
  | [] => []
  | argument :: rest =>
    match shapeOf forms argument with
    | .separator => (argument, .separator) :: rest.map (·, .argument)
    | shape => (argument, shape) :: shapes forms rest

/-- Whether an argument is the separator. -/
def isSeparator {κ : Type} : Shaped κ → Bool
  | (_, .separator) => true
  | _ => false

/-- Whether an argument may be an operand or the value of an option. -/
def isArgument {κ : Type} : Shaped κ → Bool
  | (_, .argument) => true
  | _ => false

/-- Whether an argument looks like an option. -/
def isOption {κ : Type} : Shaped κ → Bool
  | (_, .option _) => true
  | _ => false

/-- The arguments that an operand takes, and the others; none if it lacks one. -/
def OperandForm.take? {κ : Type} (form : OperandForm) (items : List (Shaped κ)) :
    Option (List String × List (Shaped κ)) :=
  let marks := items.takeWhile isSeparator
  let rest := items.dropWhile isSeparator
  let texts := fun (taken : List (Shaped κ)) => taken.map Prod.fst
  match form, rest with
  | .remainder, item :: _ => if isArgument item then some (texts items, []) else none
  | .remainder, [] => none
  | form, item :: tail =>
    if isArgument item then
      let behind := tail.takeWhile isSeparator
      some (texts (marks ++ item :: behind), tail.dropWhile isSeparator)
    else if form = .optional then some (texts marks, rest) else none
  | form, [] => if form = .optional then some (texts marks, []) else none

/-- The values of an operand: the separator itself is none of them. -/
def OperandForm.values (form : OperandForm) (taken : List String) : List String :=
  if form = .remainder then taken else taken.erase "--"

/-- The operands that arguments fill, as many of them as possible, in order. -/
def takeOperands {κ ω : Type} : List (ω × OperandForm) → List (Shaped κ) →
    List (Event κ ω) × List (ω × OperandForm) × List (Shaped κ)
  | [], items => ([], [], items)
  | (key, form) :: others, items =>
    match form.take? items with
    | some (taken, rest) =>
      let (events, left, rest) := takeOperands others rest
      (.operand key (form.values taken) :: events, left, rest)
    | none => ([], (key, form) :: others, items)

/-- The events of an option that shares its dash with others, and whether it takes the next
argument. The first argument bounds how many share the dash. -/
def takeOption {κ ω : Type} (forms : List (OptionForm κ)) (bound : Nat) (candidate : Candidate κ)
    (next : Option (Shaped κ)) : List (Event κ ω) × Bool :=
  match bound, candidate.form, candidate.value with
  | 0, _, _ => ([.misuse], false)
  | _, none, _ => ([.unknown candidate.spelling], false)
  | _, some form, none =>
    if form.takesValue then
      match next with
      | some item => if isArgument item then ([.option form.key (some item.1)], true)
        else ([.misuse], false)
      | none => ([.misuse], false)
    else ([.option form.key none], false)
  | bound + 1, some form, some value =>
    if form.takesValue then ([.option form.key (some value)], false)
    else
      match candidate.spelling.toList, value.toList with
      | '-' :: '-' :: _, _ => ([.misuse], false)
      | _, [] => ([.misuse], false)
      | _, letter :: tail =>
        if candidate.equals || letter == '-' then ([.misuse], false)
        else
          let spelling := String.ofList ['-', letter]
          match spelled? forms spelling with
          | none =>
            ([.unknown (String.ofList ('-' :: letter :: tail)), .option form.key none], false)
          | some other =>
            let following : Candidate κ := match tail with
              | [] => ⟨some other, spelling, false, none⟩
              | '=' :: value => ⟨some other, spelling, true, some (String.ofList value)⟩
              | tail => ⟨some other, spelling, false, some (String.ofList tail)⟩
            let (events, takes) := takeOption forms bound following next
            match events with
            | [.misuse] => ([.misuse], false)
            | events => (.option form.key none :: events, takes)

/-- Goes through the arguments, options and operands in turn. -/
def walk {κ ω : Type} (forms : List (OptionForm κ)) (operands : List (ω × OperandForm))
    (items : List (Shaped κ)) : List (Event κ ω) :=
  let leftOver := fun (rest : List (Shaped κ)) => rest.map fun item => Event.unknown item.1
  if !items.any isOption then
    let (events, _, rest) := takeOperands operands items
    events ++ leftOver rest
  else
    match items with
    | [] => []
    | (_, .option candidate) :: rest =>
      let (events, takes) := takeOption forms (candidate.spelling.length +
        (candidate.value.getD "").length + 1) candidate rest.head?
      events ++ walk forms operands (if takes then rest.drop 1 else rest)
    | item :: rest =>
      let (events, left, others) := takeOperands operands (item :: rest)
      if others.length < rest.length + 1 then events ++ walk forms left others
      else
        let extras := (item :: rest).takeWhile (!isOption ·)
        events ++ leftOver extras ++ walk forms left (rest.dropWhile (!isOption ·))
termination_by items.length
decreasing_by
  · split
    · simp only [List.length_drop, List.length_cons]
      omega
    · simp only [List.length_cons]
      omega
  · simp only [List.length_cons]
    omega
  · have := (List.dropWhile_suffix (fun item => !isOption item) (l := rest)).length_le
    simp only [List.length_cons]
    omega

/-- What a command line says. -/
def events {κ ω : Type} (forms : List (OptionForm κ)) (operands : List (ω × OperandForm))
    (arguments : List String) : List (Event κ ω) :=
  let items := shapes forms arguments
  let isAmbiguous := fun (item : Shaped κ) => match item.2 with
    | .ambiguous => true
    | _ => false
  if items.any isAmbiguous then [.misuse] else walk forms operands items

end ShellPrompt.CommandLine
