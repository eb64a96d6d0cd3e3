import Mathlib.Data.List.DropRight
import ShellPrompt.Proofs.Template.Alternatives

/-! # Lexemes

A template is also a plain sequence of texts, doubled braces and tags, where a tag goes from a brace
to the next closing brace. The scanner below reads that sequence from left to right without looking
at how tags are nested. -/

namespace ShellPrompt.Template

open Text

/-- What a template is a sequence of. -/
inductive Lexeme where
  | text (run : String)
  | escape
  | style (name : String)
  | component (name : ComponentName) (pairs : List (String × String))
  | header (condition : Condition)
  | alternate
  | close
deriving DecidableEq

/-- The token that a lexeme is by itself, none for the tags of conditionals. -/
def Lexeme.token? : Lexeme → Option Token
  | text run => some (.static run)
  | escape => some (.static "\x7b\x7b")
  | style name => some (.style name)
  | component name pairs => some (.component name (.ofPairs pairs))
  | header _ | alternate | close => none

theorem Lexeme.token?_eq_none_iff {lexeme : Lexeme} :
    lexeme.token? = none ↔
      (∃ condition, lexeme = header condition) ∨ lexeme = alternate ∨ lexeme = close := by
  cases lexeme <;> simp [token?]

/-! ## Tags -/

instance (name : String) : Decidable (IsName name) := inferInstanceAs (Decidable (_ ∧ _))

/-- A text without the white space around it. -/
def trimmed (text : List Char) : List Char := (text.dropWhile isBlank).rdropWhile isBlank

/-- The keyword in a style tag. -/
def styleTag? (styles : StyleTable) (body : List Char) : Option String :=
  let name := String.ofList (trimmed body)
  if IsName name ∧ styles.contains name = true then some name else none

theorem trimmed_append {before inner after : List Char} (hbefore : AllBlank before)
    (hne : inner ≠ []) (hinner : ∀ c ∈ inner, isBlank c = false) (hafter : AllBlank after) :
    trimmed (before ++ inner ++ after) = inner := by
  have hbegin : Stops isBlank (inner ++ after) := stops_isBlank_append hne hinner
  have hend : Stops isBlank (inner.reverse ++ []) :=
    stops_isBlank_append (by simpa using hne) (by simpa using hinner)
  have hreverse : AllBlank after.reverse := by simpa [AllBlank] using hafter
  rw [List.append_nil] at hend
  rw [trimmed, List.append_assoc, dropWhile_append_of_stops hbefore hbegin, List.rdropWhile,
    List.reverse_append, dropWhile_append_of_stops hreverse hend, List.reverse_reverse]

theorem exists_trimmed (text : List Char) :
    ∃ before after, AllBlank before ∧ AllBlank after ∧ text = before ++ trimmed text ++ after := by
  refine ⟨text.takeWhile isBlank, (text.dropWhile isBlank).rtakeWhile isBlank,
    fun c hc => List.mem_takeWhile_imp hc, fun c hc => List.mem_rtakeWhile_imp hc, ?_⟩
  rw [trimmed, List.append_assoc, List.rdropWhile_append_rtakeWhile,
    List.takeWhile_append_dropWhile]

theorem styleTag?_eq_some_iff {styles : StyleTable} {body : List Char} {name : String} :
    styleTag? styles body = some name ↔
      IsName name ∧ styles.contains name = true ∧
        ∃ before after, AllBlank before ∧ AllBlank after ∧
          body = before ++ name.toList ++ after := by
  constructor
  · intro h
    unfold styleTag? at h
    dsimp only at h
    split at h
    · rename_i hname
      obtain rfl := Option.some.inj h
      refine ⟨hname.1, hname.2, ?_⟩
      rw [String.toList_ofList]
      exact exists_trimmed body
    · cases h
  · rintro ⟨hname, hknown, before, after, hbefore, hafter, rfl⟩
    simp only [styleTag?, trimmed_append hbefore hname.ne_nil hname.not_blank hafter,
      String.ofList_toList, if_pos (And.intro hname hknown)]

/-- The condition in the header of a conditional. -/
def headerTag? (body : List Char) : Option Condition :=
  match body.dropWhile isBlank with
  | 'i' :: 'f' :: rest =>
    let name := String.ofList (rest.dropWhile isBlank)
    if IsName name then Condition.ofIdentifier? name else none
  | _ => none

theorem headerTag?_eq_some_iff {body : List Char} {condition : Condition} :
    headerTag? body = some condition ↔
      ∃ before between, ∃ name : String, IsName name ∧
        Condition.ofIdentifier? name = some condition ∧ AllBlank before ∧ AllBlank between ∧
        body = before ++ ['i', 'f'] ++ (between ++ name.toList) := by
  constructor
  · intro h
    have hbody := List.takeWhile_append_dropWhile (p := isBlank) (l := body)
    unfold headerTag? at h
    split at h
    · rename_i rest hrest
      have hinner := List.takeWhile_append_dropWhile (p := isBlank) (l := rest)
      dsimp only at h
      split at h
      · rename_i hname
        refine ⟨body.takeWhile isBlank, rest.takeWhile isBlank, _, hname, h,
          fun c hc => List.mem_takeWhile_imp hc, fun c hc => List.mem_takeWhile_imp hc, ?_⟩
        rw [String.toList_ofList, hinner, List.append_assoc]
        exact (hrest ▸ hbody).symm
      · cases h
    · cases h
  · rintro ⟨before, between, name, hname, hcondition, hbefore, hbetween, rfl⟩
    have hif : Stops isBlank ('i' :: 'f' :: (between ++ name.toList)) := stops_cons.mpr (by decide)
    have hbegin : Stops isBlank (name.toList ++ []) :=
      stops_isBlank_append hname.ne_nil hname.not_blank
    rw [List.append_nil] at hbegin
    rw [headerTag?, List.append_assoc, List.cons_append, List.cons_append, List.nil_append,
      dropWhile_append_of_stops hbefore hif]
    simp only [dropWhile_append_of_stops hbetween hbegin, String.ofList_toList, if_pos hname,
      hcondition]

/-- The option that a text begins with, and what follows it. -/
def firstPair? (text : List Char) : Option ((String × String) × List Char) :=
  let inner := text.dropWhile isBlank
  match inner.dropWhile isKeyChar with
  | '=' :: rest =>
    let key := inner.takeWhile isKeyChar
    let value := rest.takeWhile isValueChar
    if inner.length < text.length ∧ key ≠ [] ∧ value ≠ [] then
      some ((String.ofList key, String.ofList value), rest.dropWhile isValueChar)
    else none
  | _ => none

theorem spelling_of_firstPair? {text rest : List Char} {key value : String}
    (h : firstPair? text = some ((key, value), rest)) :
    ∃ blank : String, blank ≠ "" ∧ AllBlank blank.toList ∧ IsKey key ∧ IsValue value ∧
      text = blank.toList ++ (key.toList ++ '=' :: value.toList) ++ rest ∧
      Stops isValueChar rest := by
  rw [firstPair?] at h
  split at h
  · rename_i after hafter
    dsimp only at h
    split at h
    · rename_i hparts
      obtain ⟨hblank, hkey, hvalue⟩ := hparts
      simp only [Option.some.injEq, Prod.mk.injEq] at h
      obtain ⟨⟨rfl, rfl⟩, rfl⟩ := h
      have htext := List.takeWhile_append_dropWhile (p := isBlank) (l := text)
      have hinner := List.takeWhile_append_dropWhile (p := isKeyChar)
        (l := text.dropWhile isBlank)
      rw [hafter] at hinner
      refine ⟨String.ofList (text.takeWhile isBlank), ?_, ?_, ⟨?_, ?_⟩, ⟨?_, ?_⟩, ?_,
        stops_dropWhile _ _⟩
      · intro hnil
        have hnil : text.takeWhile isBlank = [] := by simpa using hnil
        rw [hnil, List.nil_append] at htext
        rw [htext] at hblank
        omega
      · simpa [AllBlank] using fun c hc => List.mem_takeWhile_imp hc
      · simpa using hkey
      · simpa using fun c hc => List.mem_takeWhile_imp hc
      · simpa using hvalue
      · simpa using fun c hc => List.mem_takeWhile_imp hc
      · simp only [String.toList_ofList, List.append_assoc, List.cons_append,
          List.takeWhile_append_dropWhile, hinner, htext]
    · cases h
  · cases h

theorem firstPair?_of_spelling {rest : List Char} {blank key value : String} (hne : blank ≠ "")
    (hblank : AllBlank blank.toList) (hkey : IsKey key) (hvalue : IsValue value)
    (hstops : Stops isValueChar rest) :
    firstPair? (blank.toList ++ (key.toList ++ '=' :: value.toList) ++ rest) =
      some ((key, value), rest) := by
  have hbegin : Stops isBlank (key.toList ++ '=' :: (value.toList ++ rest)) :=
    stops_isBlank_append hkey.ne_nil hkey.not_blank
  have hend : Stops isKeyChar ('=' :: (value.toList ++ rest)) := stops_cons.mpr (by decide)
  have hlength : 0 < blank.toList.length := by
    rw [List.length_pos_iff]
    simpa using hne
  simp only [firstPair?, List.append_assoc, List.cons_append,
    dropWhile_append_of_stops hblank hbegin, takeWhile_append_of_stops hkey.2 hend,
    dropWhile_append_of_stops hkey.2 hend, takeWhile_append_of_stops hvalue.2 hstops,
    dropWhile_append_of_stops hvalue.2 hstops, String.ofList_toList]
  rw [if_pos]
  refine ⟨?_, hkey.ne_nil, by simpa using hvalue.1⟩
  simp only [List.length_append, List.length_cons]
  omega

theorem firstPair?_eq_some_iff {text rest : List Char} {pair : String × String} :
    firstPair? text = some (pair, rest) ↔
      ∃ blank : String, blank ≠ "" ∧ AllBlank blank.toList ∧ IsKey pair.1 ∧ IsValue pair.2 ∧
        text = blank.toList ++ (pair.1.toList ++ '=' :: pair.2.toList) ++ rest ∧
        Stops isValueChar rest := by
  constructor
  · exact spelling_of_firstPair?
  · rintro ⟨blank, hne, hblank, hkey, hvalue, rfl, hstops⟩
    exact firstPair?_of_spelling hne hblank hkey hvalue hstops

theorem firstPair?_length_lt {text rest : List Char} {pair : String × String}
    (h : firstPair? text = some (pair, rest)) : rest.length < text.length := by
  obtain ⟨blank, hne, _, _, _, rfl, _⟩ := firstPair?_eq_some_iff.mp h
  simp only [List.length_append, List.length_cons]
  omega

/-- The options that a text begins with, as many as there are, and what follows them. -/
def longestPairs (text : List Char) : List (String × String) × List Char :=
  match _h : firstPair? text with
  | some (pair, rest) =>
    let (pairs, last) := longestPairs rest
    (pair :: pairs, last)
  | none => ([], text)
termination_by text.length
decreasing_by exact firstPair?_length_lt _h

/-- The options that a text consists of, white space at its end aside. -/
def pairs? (text : List Char) : Option (List (String × String)) :=
  let (pairs, last) := longestPairs text
  if last.all isBlank then some pairs else none

/-- The component in a component tag, and its options as they are written. -/
def componentTag? (body : List Char) : Option (ComponentName × List (String × String)) :=
  let inner := body.dropWhile isBlank
  match ComponentName.ofIdentifier? (String.ofList (inner.takeWhile isIdentifierChar)) with
  | some name => (pairs? (inner.dropWhile isIdentifierChar)).map (name, ·)
  | none => none

theorem pairs?_eq_some_iff {text : List Char} {pairs : List (String × String)} :
    pairs? text = some pairs ↔ (longestPairs text).1 = pairs ∧ AllBlank (longestPairs text).2 := by
  simp [pairs?, AllBlank, and_comm]

theorem ofIdentifier?_eq_some_iff {word : String} {name : ComponentName} :
    ComponentName.ofIdentifier? word = some name ↔ word = name.identifier := by
  constructor
  · intro h
    have := List.find?_some h
    simpa [eq_comm] using this
  · rintro rfl
    cases name <;> decide

theorem isName_identifier (name : ComponentName) : IsName name.identifier := by
  cases name <;> decide

theorem componentTag?_eq_some_iff {body : List Char} {name : ComponentName}
    {pairs : List (String × String)} :
    componentTag? body = some (name, pairs) ↔
      ∃ before inner, AllBlank before ∧ Stops isIdentifierChar inner ∧ pairs? inner = some pairs ∧
        body = before ++ name.identifier.toList ++ inner := by
  constructor
  · intro h
    have hbody := List.takeWhile_append_dropWhile (p := isBlank) (l := body)
    have hinner := List.takeWhile_append_dropWhile (p := isIdentifierChar)
      (l := body.dropWhile isBlank)
    unfold componentTag? at h
    dsimp only at h
    split at h
    · rename_i component hword
      obtain ⟨_, hpairs, heq⟩ := Option.map_eq_some_iff.mp h
      obtain ⟨rfl, rfl⟩ := Prod.mk.inj heq
      refine ⟨body.takeWhile isBlank, _, fun c hc => List.mem_takeWhile_imp hc,
        stops_dropWhile _ _, hpairs, ?_⟩
      rw [← ofIdentifier?_eq_some_iff.mp hword, String.toList_ofList, List.append_assoc, hinner,
        hbody]
    · cases h
  · rintro ⟨before, inner, hbefore, hend, hpairs, rfl⟩
    have hword := isName_identifier name
    have hbegin : Stops isBlank (name.identifier.toList ++ inner) :=
      stops_isBlank_append hword.ne_nil hword.not_blank
    have hchars := (isName_iff.mp hword).2.1
    rw [componentTag?, List.append_assoc, dropWhile_append_of_stops hbefore hbegin]
    simp only [takeWhile_append_of_stops hchars hend, dropWhile_append_of_stops hchars hend,
      String.ofList_toList, ofIdentifier?_eq_some_iff.mpr rfl, hpairs, Option.map_some]

/-- The lexeme of a tag: the tags that close a branch come first, then what the style table, the
conditions and the components know, in this order. -/
def tag? (styles : StyleTable) (body : List Char) : Option Lexeme :=
  if body = "end".toList then some .close
  else if body = "else".toList then some .alternate
  else match styleTag? styles body, headerTag? body, componentTag? body with
    | some name, _, _ => some (.style name)
    | none, some condition, _ => some (.header condition)
    | none, none, some (name, pairs) => some (.component name pairs)
    | none, none, none => none

/-! ## Scanning -/

/-- The lexeme that a text begins with, and what follows it. -/
def next? (styles : StyleTable) : List Char → Option (Lexeme × List Char)
  | [] => none
  | '{' :: '{' :: rest => some (.escape, rest)
  | '{' :: rest =>
    match rest.dropWhile (· ≠ '}') with
    | [] => none
    | _ :: after => (tag? styles (rest.takeWhile (· ≠ '}'))).map (·, after)
  | text => some (.text (String.ofList (text.takeWhile (· ≠ '{'))), text.dropWhile (· ≠ '{'))

/-- The ways in which a text can begin. -/
inductive Front : List Char → Prop where
  | empty : Front []
  | run {run rest : List Char} (hne : run ≠ []) (hrun : ∀ c ∈ run, c ≠ '{')
      (hrest : ∀ c ∈ rest.head?, c = '{') : Front (run ++ rest)
  | doubled {rest : List Char} : Front ('{' :: '{' :: rest)
  | tag {body rest : List Char} (hhead : body.head? ≠ some '{') (hbody : '}' ∉ body) :
      Front ('{' :: (body ++ '}' :: rest))
  | unclosed {body : List Char} (hhead : body.head? ≠ some '{') (hbody : '}' ∉ body) :
      Front ('{' :: body)

theorem front_brace {rest : List Char} (hrest : rest.head? ≠ some '{') : Front ('{' :: rest) := by
  have hsplit := List.takeWhile_append_dropWhile (p := (· ≠ '}')) (l := rest)
  have hbody : '}' ∉ rest.takeWhile (· ≠ '}') := fun h => by
    simpa using List.mem_takeWhile_imp h
  have hhead : (rest.takeWhile (· ≠ '}')).head? ≠ some '{' := by
    cases rest with
    | nil => simp
    | cons c rest =>
        by_cases hc : c = '}'
        · simp [hc]
        · simpa [List.takeWhile_cons, hc] using hrest
  cases hafter : rest.dropWhile (· ≠ '}') with
  | nil =>
      rw [hafter, List.append_nil] at hsplit
      rw [hsplit] at hbody hhead
      exact .unclosed hhead hbody
  | cons c after =>
      have hc : c = '}' := by
        have hstops := stops_dropWhile (fun d => decide (d ≠ '}')) rest
        rw [hafter, stops_cons] at hstops
        simpa using hstops
      rw [hafter, hc] at hsplit
      rw [← hsplit]
      exact .tag hhead hbody

theorem front (text : List Char) : Front text := by
  cases text with
  | nil => exact .empty
  | cons c rest =>
      by_cases hc : c = '{'
      · subst hc
        by_cases hrest : rest.head? = some '{'
        · obtain ⟨after, rfl⟩ := List.head?_eq_some_iff.mp hrest
          exact .doubled
        · exact front_brace hrest
      · have hsplit := List.takeWhile_append_dropWhile (p := (· ≠ '{')) (l := c :: rest)
        rw [← hsplit]
        refine .run ?_ ?_ ?_
        · simp [hc]
        · exact fun d hd => by simpa using List.mem_takeWhile_imp hd
        · simpa [Stops] using stops_dropWhile (fun d => decide (d ≠ '{')) (c :: rest)

section

variable {styles : StyleTable}

theorem next?_run {run rest : List Char} (hne : run ≠ []) (hrun : ∀ c ∈ run, c ≠ '{')
    (hrest : ∀ c ∈ rest.head?, c = '{') :
    next? styles (run ++ rest) = some (.text (String.ofList run), rest) := by
  have hpass : ∀ c ∈ run, decide (c ≠ '{') = true := by simpa using hrun
  have hstops : Stops (fun c => decide (c ≠ '{')) rest := by simpa [Stops] using hrest
  have htake := takeWhile_append_of_stops hpass hstops
  have hdrop := dropWhile_append_of_stops hpass hstops
  cases run with
  | nil => exact absurd rfl hne
  | cons c run =>
      have hc : c ≠ '{' := hrun c (by simp)
      rw [List.cons_append] at htake hdrop ⊢
      rw [next?.eq_4 styles (c :: (run ++ rest)) (by simp) (by simp [hc]) (by simp [hc]), htake,
        hdrop]

theorem next?_tag {body rest : List Char} (hhead : body.head? ≠ some '{') (hbody : '}' ∉ body) :
    next? styles ('{' :: (body ++ '}' :: rest)) = (tag? styles body).map (·, rest) := by
  have hpass : ∀ c ∈ body, decide (c ≠ '}') = true := by
    intro c hc
    simpa using ne_of_mem_of_not_mem hc hbody
  have hstops : Stops (fun c => decide (c ≠ '}')) ('}' :: rest) := stops_cons.mpr (by simp)
  have hother : ∀ after, body ++ '}' :: rest ≠ '{' :: after := by
    intro after h
    cases body with
    | nil => simp at h
    | cons c body => simp_all
  rw [next?.eq_3 styles (body ++ '}' :: rest) (by simpa using hother),
    dropWhile_append_of_stops hpass hstops, takeWhile_append_of_stops hpass hstops]

theorem next?_of_tag? {body rest : List Char} {lexeme : Lexeme}
    (h : tag? styles body = some lexeme) (hhead : body.head? ≠ some '{') (hbody : '}' ∉ body) :
    next? styles ('{' :: (body ++ '}' :: rest)) = some (lexeme, rest) := by
  rw [next?_tag hhead hbody, h, Option.map_some]

theorem next?_unclosed {body : List Char} (hhead : body.head? ≠ some '{') (hbody : '}' ∉ body) :
    next? styles ('{' :: body) = none := by
  have hother : ∀ after, body ≠ '{' :: after := by
    rintro after rfl
    simp at hhead
  have hdrop : body.dropWhile (fun c => decide (c ≠ '}')) = [] := by
    rw [List.dropWhile_eq_nil_iff]
    intro c hc
    simpa using ne_of_mem_of_not_mem hc hbody
  rw [next?.eq_3 styles body (by simpa using hother), hdrop]

/-- What the first lexeme of a text is, and what stands behind it. -/
inductive Begins (styles : StyleTable) : List Char → Lexeme → List Char → Prop where
  | text {run rest : List Char} (hne : run ≠ []) (hrun : ∀ c ∈ run, c ≠ '{')
      (hrest : ∀ c ∈ rest.head?, c = '{') :
      Begins styles (run ++ rest) (.text (String.ofList run)) rest
  | escape {rest : List Char} : Begins styles ('{' :: '{' :: rest) .escape rest
  | tag {body rest : List Char} {lexeme : Lexeme} (hhead : body.head? ≠ some '{')
      (hbody : '}' ∉ body) (htag : tag? styles body = some lexeme) :
      Begins styles ('{' :: (body ++ '}' :: rest)) lexeme rest

theorem begins_of_next? {text rest : List Char} {lexeme : Lexeme}
    (h : next? styles text = some (lexeme, rest)) : Begins styles text lexeme rest := by
  cases front text with
  | empty => simp [next?] at h
  | run hne hrun hrest =>
      rw [next?_run hne hrun hrest] at h
      obtain ⟨rfl, rfl⟩ := Prod.mk.inj (Option.some.inj h)
      exact .text hne hrun hrest
  | doubled =>
      obtain ⟨rfl, rfl⟩ := Prod.mk.inj (Option.some.inj h)
      exact .escape
  | tag hhead hbody =>
      rw [next?_tag hhead hbody] at h
      obtain ⟨_, htag, heq⟩ := Option.map_eq_some_iff.mp h
      obtain ⟨rfl, rfl⟩ := Prod.mk.inj heq
      exact .tag hhead hbody htag
  | unclosed hhead hbody => simp [next?_unclosed hhead hbody] at h

/-- A lexeme is made of characters, so what follows it is shorter. -/
theorem next?_length_lt {text rest : List Char} {lexeme : Lexeme}
    (h : next? styles text = some (lexeme, rest)) : rest.length < text.length := by
  cases begins_of_next? h with
  | text hne _ _ =>
      have hpos := List.length_pos_iff.mpr hne
      rw [List.length_append]
      omega
  | escape =>
      simp only [List.length_cons]
      omega
  | tag _ _ _ =>
      simp only [List.length_cons, List.length_append]
      omega

end

/-- The lexemes of a whole text. -/
def scan (styles : StyleTable) (text : List Char) : Option (List Lexeme) :=
  if text = [] then some []
  else match _h : next? styles text with
    | some (lexeme, rest) => (scan styles rest).map (lexeme :: ·)
    | none => none
termination_by text.length
decreasing_by exact next?_length_lt _h

/-- Scanning a text as far as a place in it. -/
inductive Scans (styles : StyleTable) : List Char → List Lexeme → List Char → Prop where
  | done (text) : Scans styles text [] text
  | step {text middle last lexeme lexemes} (h : next? styles text = some (lexeme, middle)) :
      Scans styles middle lexemes last → Scans styles text (lexeme :: lexemes) last

theorem Scans.append {styles : StyleTable} {text middle last : List Char}
    {first second : List Lexeme} (h₁ : Scans styles text first middle)
    (h₂ : Scans styles middle second last) : Scans styles text (first ++ second) last := by
  induction h₁ with
  | done => exact h₂
  | step h _ ih => exact .step h (ih h₂)

theorem scan_of_next? {styles : StyleTable} {text rest : List Char} {lexeme : Lexeme}
    (h : next? styles text = some (lexeme, rest)) :
    scan styles text = (scan styles rest).map (lexeme :: ·) := by
  have hne : text ≠ [] := by
    rintro rfl
    simp [next?] at h
  rw [scan, if_neg hne]
  split
  · rename_i hnext
    obtain ⟨rfl, rfl⟩ := Prod.mk.inj (Option.some.inj (h.symm.trans hnext))
    rfl
  · rename_i hnext
    cases h.symm.trans hnext

theorem Scans.scan_eq {styles : StyleTable} {text last : List Char} {lexemes : List Lexeme}
    (h : Scans styles text lexemes last) :
    scan styles text = (scan styles last).map (lexemes ++ ·) := by
  induction h with
  | done => simp
  | step hnext _ ih =>
      rw [scan_of_next? hnext, ih, Option.map_map]
      rfl

/-- Nothing is scanned where a tag does not classify. -/
theorem scan_of_unclassified {styles : StyleTable} {body rest : List Char}
    (hhead : body.head? ≠ some '{') (hbody : '}' ∉ body) (h : tag? styles body = none) :
    scan styles ('{' :: (body ++ '}' :: rest)) = none := by
  rw [scan, if_neg (List.cons_ne_nil _ _)]
  split
  · rename_i hnext
    rw [next?_tag hhead hbody, h] at hnext
    cases hnext
  · rfl

theorem scan_eq_some_iff {styles : StyleTable} {text : List Char} {lexemes : List Lexeme} :
    scan styles text = some lexemes ↔ Scans styles text lexemes [] := by
  constructor
  · intro h
    induction lexemes generalizing text with
    | nil =>
        rw [scan] at h
        split at h
        · rename_i htext
          subst htext
          exact .done []
        · split at h
          · simp at h
          · cases h
    | cons lexeme lexemes ih =>
        rw [scan] at h
        split at h
        · cases h
        · split at h
          · rename_i hnext
            obtain ⟨_, hrest, hcons⟩ := Option.map_eq_some_iff.mp h
            obtain ⟨rfl, rfl⟩ := List.cons.inj hcons
            exact .step hnext (ih hrest)
          · cases h
  · intro h
    rw [h.scan_eq, scan, if_pos rfl, Option.map_some, List.append_nil]

end ShellPrompt.Template
