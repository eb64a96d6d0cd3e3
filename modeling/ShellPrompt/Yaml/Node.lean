import ShellPrompt.Yaml.Lexeme
import ShellPrompt.Yaml.Tag

/-!
Nodes of a YAML document: scalars, sequences and mappings with their tags. An alias stands for the
node that its anchor marks; an alias inside that very node is cut short.
-/

namespace ShellPrompt.Yaml

/-- A node of a document. `inside` stands for an enclosing collection. -/
inductive Node where
  | scalar (tag : Tag) (text : String)
  | sequence (tag : Tag) (items : List Node)
  | mapping (tag : Tag) (pairs : List (Node × Node))
  | inside (ofMapping : Bool)
deriving Inhabited

/-- What an anchor marks: a node, or a collection that has not ended yet. -/
inductive Anchored where
  | done (node : Node)
  | begun (isMapping : Bool)

/-- The lexemes that are left, and the anchors so far. -/
structure Composing where
  rest : List Lexeme
  anchors : List (String × Anchored) := []

/-- A step in putting nodes together. -/
abbrev Compose (α : Type) := StateT Composing (Except Fault) α

/-- What handles of tags stand for. -/
abbrev Handles := List (String × String)

/-- The handles that need no directive. -/
def Handles.standard : Handles := [("!", "!"), ("!!", Tag.standard)]

namespace Compose

/-- The next lexeme, none at the end. -/
def peek : Compose (Option Lexeme) := do
  match (← get).rest with
  | [] => return none
  | .fault fault :: _ => throw fault
  | lexeme :: _ => return some lexeme

/-- Moves over a lexeme. -/
def skip : Compose Unit := modify fun s => { s with rest := s.rest.drop 1 }

/-- Reads an anchor if there is one. -/
def anchor : Compose (Option String) := do
  match ← peek with
  | some (.anchor name) =>
    skip
    return some name
  | _ => return none

/-- Reads a tag if there is one. -/
def tag (handles : Handles) : Compose (Option String) := do
  match ← peek with
  | some (.tag none suffix) =>
    skip
    return some suffix
  | some (.tag (some handle) suffix) =>
    skip
    match handles.lookup handle with
    | some meaning => return some (meaning ++ suffix)
    | none => throw .malformed
  | _ => return none

/-- Reads an anchor and a tag in either order. -/
def properties (handles : Handles) : Compose (Option String × Option String) := do
  match ← anchor with
  | some name => return (some name, ← tag handles)
  | none =>
    match ← tag handles with
    | some name => return (← anchor, some name)
    | none => return (none, none)

/-- Notes what an anchor marks. -/
def mark (name : Option String) (anchored : Anchored) : Compose Unit :=
  match name with
  | none => return ()
  | some name => modify fun s => { s with anchors := (name, anchored) :: s.anchors }

/-- No anchor may be set twice. -/
def checkFresh (name : Option String) : Compose Unit := do
  match name with
  | none => return ()
  | some name => if ((← get).anchors.lookup name).isSome then throw .malformed

/-- The node that an alias stands for. -/
def lookup (name : String) : Compose Node := do
  match (← get).anchors.lookup name with
  | some (.done node) => return node
  | some (.begun isMapping) => return .inside isMapping
  | none => throw .malformed

/-- The kind of a scalar. -/
def scalarTag (name : Option String) (plain : Bool) (text : String) : Tag :=
  match name with
  | none => if plain then .ofPlain text else .text
  | some "!" => .ofPlain text
  | some name => .ofName name

/-- The kind of a collection. -/
def collectionTag (name : Option String) (default : Tag) : Tag :=
  match name with
  | none => default
  | some "!" => default
  | some name => .ofName name

/-- A scalar that is left out. -/
def empty : Node := .scalar (.ofPlain "") ""

/-- Whether a lexeme ends a place where a node of a block may stand. -/
def endsEntry : Option Lexeme → Bool
  | some .blockEntry | some .blockEnd => true
  | _ => false

/-- Whether a lexeme ends a place where a key or value of a block may stand. -/
def endsPart : Option Lexeme → Bool
  | some .key | some .value | some .blockEnd => true
  | _ => false

/-- Whether a lexeme ends a part of a flow sequence. -/
def endsFlowItem : Option Lexeme → Bool
  | some .flowEntry | some .flowSequenceEnd => true
  | _ => false

/-- Whether a lexeme ends a part of a flow mapping. -/
def endsFlowPart : Option Lexeme → Bool
  | some .flowEntry | some .flowMappingEnd => true
  | _ => false

/-- Whether a lexeme is the mark of a value. -/
def isValue : Option Lexeme → Bool
  | some .value => true
  | _ => false

mutual

/-- Reads a node. In a block context block collections may stand; where `indentless`, a sequence
need not be indented. The first argument bounds how deep the reading goes. -/
def node (bound : Nat) (handles : Handles) (block indentless : Bool) : Compose Node := do
  match bound with
  | 0 => throw .malformed
  | bound + 1 =>
    match ← peek with
    | some (.alias name) =>
      skip
      lookup name
    | _ =>
      let (name, tag) ← properties handles
      let start ← peek
      checkFresh name
      match start, block, indentless with
      | some .blockEntry, _, true =>
        mark name (.begun false)
        finish name (.sequence (collectionTag tag .sequence) (← looseItems bound handles))
      | some (.scalar text plain), _, _ =>
        skip
        finish name (.scalar (scalarTag tag plain text) text)
      | some .flowSequenceStart, _, _ =>
        skip
        mark name (.begun false)
        finish name (.sequence (collectionTag tag .sequence) (← flowItems bound handles true))
      | some .flowMappingStart, _, _ =>
        skip
        mark name (.begun true)
        finish name (.mapping (collectionTag tag .mapping) (← flowPairs bound handles true))
      | some .blockSequenceStart, true, _ =>
        skip
        mark name (.begun false)
        finish name (.sequence (collectionTag tag .sequence) (← blockItems bound handles))
      | some .blockMappingStart, true, _ =>
        skip
        mark name (.begun true)
        finish name (.mapping (collectionTag tag .mapping) (← blockPairs bound handles))
      | _, _, _ =>
        if name.isNone && tag.isNone then throw .malformed
        finish name (.scalar (scalarTag tag true "") "")
where
  /-- Notes what the anchor marks. -/
  finish (name : Option String) (node : Node) : Compose Node := do
    mark name (.done node)
    return node

/-- Reads the items of a block sequence. -/
def blockItems (bound : Nat) (handles : Handles) : Compose (List Node) := do
  match bound with
  | 0 => throw .malformed
  | bound + 1 =>
    match ← peek with
    | some .blockEntry =>
      skip
      let item ← if endsEntry (← peek) then pure empty else node bound handles true false
      return item :: (← blockItems bound handles)
    | some .blockEnd =>
      skip
      return []
    | _ => throw .malformed

/-- Reads the items of a sequence that is not indented. -/
def looseItems (bound : Nat) (handles : Handles) : Compose (List Node) := do
  match bound with
  | 0 => throw .malformed
  | bound + 1 =>
    match ← peek with
    | some .blockEntry =>
      skip
      let next ← peek
      let item ←
        if endsEntry next || endsPart next then pure empty
        else node bound handles true false
      return item :: (← looseItems bound handles)
    | _ => return []

/-- Reads the pairs of a block mapping. -/
def blockPairs (bound : Nat) (handles : Handles) : Compose (List (Node × Node)) := do
  match bound with
  | 0 => throw .malformed
  | bound + 1 =>
    match ← peek with
    | some .key =>
      skip
      let key ← if endsPart (← peek) then pure empty else node bound handles true true
      let value ← do
        if isValue (← peek) then
          skip
          if endsPart (← peek) then pure empty else node bound handles true true
        else pure empty
      return (key, value) :: (← blockPairs bound handles)
    | some .blockEnd =>
      skip
      return []
    | _ => throw .malformed

/-- Reads the items of a flow sequence. A pair among them is a mapping of its own. -/
def flowItems (bound : Nat) (handles : Handles) (first : Bool) : Compose (List Node) := do
  match bound with
  | 0 => throw .malformed
  | bound + 1 =>
    match ← peek, first with
    | some .flowSequenceEnd, _ =>
      skip
      return []
    | some .flowEntry, false =>
      skip
      flowItem bound handles
    | _, true => flowItem bound handles
    | _, false => throw .malformed

/-- Reads an item of a flow sequence, if there is one, and those behind it. -/
def flowItem (bound : Nat) (handles : Handles) : Compose (List Node) := do
  match bound with
  | 0 => throw .malformed
  | bound + 1 =>
    match ← peek with
    | some .flowSequenceEnd =>
      skip
      return []
    | some .key =>
      skip
      let next ← peek
      let key ←
        if isValue next || endsFlowItem next then pure empty
        else node bound handles false false
      let value ← do
        if isValue (← peek) then
          skip
          if endsFlowItem (← peek) then pure empty else node bound handles false false
        else pure empty
      return .mapping .mapping [(key, value)] :: (← flowItems bound handles false)
    | _ =>
      let item ← node bound handles false false
      return item :: (← flowItems bound handles false)

/-- Reads the pairs of a flow mapping. -/
def flowPairs (bound : Nat) (handles : Handles) (first : Bool) : Compose (List (Node × Node)) := do
  match bound with
  | 0 => throw .malformed
  | bound + 1 =>
    match ← peek, first with
    | some .flowMappingEnd, _ =>
      skip
      return []
    | some .flowEntry, false =>
      skip
      flowPair bound handles
    | _, true => flowPair bound handles
    | _, false => throw .malformed

/-- Reads a pair of a flow mapping, if there is one, and those behind it. -/
def flowPair (bound : Nat) (handles : Handles) : Compose (List (Node × Node)) := do
  match bound with
  | 0 => throw .malformed
  | bound + 1 =>
    match ← peek with
    | some .flowMappingEnd =>
      skip
      return []
    | some .key =>
      skip
      let next ← peek
      let key ←
        if isValue next || endsFlowPart next then pure empty
        else node bound handles false false
      let value ← do
        if isValue (← peek) then
          skip
          if endsFlowPart (← peek) then pure empty else node bound handles false false
        else pure empty
      return (key, value) :: (← flowPairs bound handles false)
    | _ =>
      let key ← node bound handles false false
      return (key, empty) :: (← flowPairs bound handles false)

end

/-- Reads the directives in front of a document. -/
def directives (bound : Nat) (version : Bool) (handles : Handles) : Compose Handles := do
  match bound with
  | 0 => throw .malformed
  | bound + 1 =>
    match ← peek with
    | some (.directive (.version major)) =>
      skip
      if version || major != 1 then throw .malformed
      directives bound true handles
    | some (.directive (.tagPrefix handle meaning)) =>
      skip
      if (handles.lookup handle).isSome then throw .malformed
      directives bound version ((handle, meaning) :: handles)
    | some (.directive .other) =>
      skip
      directives bound version handles
    | _ => return handles

/-- Reads the marks at the end of documents. -/
def documentEnds (bound : Nat) : Compose Unit := do
  match bound with
  | 0 => throw .malformed
  | bound + 1 =>
    match ← peek with
    | some .documentEnd =>
      skip
      documentEnds bound
    | _ => return ()

/-- Reads the only document of a text, none if there is not even one. -/
def document (bound : Nat) : Compose (Option Node) := do
  match ← peek with
  | none => return none
  | some (.directive _) | some .documentStart =>
    let handles ← directives bound false []
    match ← peek with
    | some .documentStart => skip
    | _ => throw .malformed
    let root ← match ← peek with
      | none | some (.directive _) | some .documentStart | some .documentEnd => pure empty
      | _ => node bound (handles ++ Handles.standard) true false
    last root
  | _ => last (← node bound Handles.standard true false)
where
  /-- Nothing may follow but marks of the end. -/
  last (root : Node) : Compose (Option Node) := do
    documentEnds bound
    match ← peek with
    | none => return some root
    | _ => throw .malformed

end Compose

/-- The node that lexemes stand for, none if there are none. Every step of the reading moves over a
lexeme or goes one level down, so their number bounds its depth. -/
def Node.ofLexemes? (lexemes : List Lexeme) : Except Fault (Option Node) :=
  (Compose.document (4 * lexemes.length + 8)).run' { rest := lexemes }

end ShellPrompt.Yaml
