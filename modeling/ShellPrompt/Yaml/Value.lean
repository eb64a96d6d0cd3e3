import ShellPrompt.Data.Basic
import ShellPrompt.Number.DecimalText
import ShellPrompt.Text.LetterCase
import ShellPrompt.Yaml.Node

/-!
The data that a YAML document stands for.

Where a document is at fault in several places, one fault is reported: of those nearest to the root
the first one, because the parts of a collection are looked at before the parts of those parts.
-/

namespace ShellPrompt.Yaml

/-- A result, or a fault with its distance from the root. -/
abbrev Graded (α : Type) := Except (Nat × Fault) α

namespace Graded

/-- Fails at a distance from the root. -/
def fail {α : Type} (level : Nat) (fault : Fault) : Graded α := .error (level, fault)

/-- A result whose fault, if any, lies at a distance from the root. -/
def place {α : Type} (level : Nat) (result : Except Fault α) : Graded α :=
  result.mapError fun fault => (level, fault)

/-- Two results together; of two faults the one nearer to the root is kept. -/
def both {α β γ : Type} (combine : α → β → γ) : Graded α → Graded β → Graded γ
  | .ok a, .ok b => .ok (combine a b)
  | .error e, .ok _ => .error e
  | .ok _, .error f => .error f
  | .error e, .error f => if f.1 < e.1 then .error f else .error e

end Graded

/-! ## Scalars -/

/-- Reads a truth value. -/
def truthOf (text : String) : Except Fault Scalar :=
  let word := Text.toLower text
  if ["yes", "true", "on"].contains word then .ok (.bool true)
  else if ["no", "false", "off"].contains word then .ok (.bool false)
  else .error .notTruth

/-- The characters of a number without underscores, and its sign. -/
def splitNumber (text : String) : Except Fault (Bool × List Char) :=
  match text.toList.filter (· != '_') with
  | [] => .error .emptyNumber
  | c :: rest => .ok (c == '-', if c == '-' || c == '+' then rest else c :: rest)

/-- Reads a whole number in a base. -/
def numeralOf (base : Nat) (digits : List Char) : Except Fault Int :=
  (Numeral.read base (String.ofList digits)).mapError .numeral

/-- The value of numbers to the base sixty, the first one of the greatest weight. -/
def sexagesimal (parts : List Int) : Int := parts.foldl (fun n part => n * 60 + part) 0

/-- Reads a whole number: binary, octal, hexadecimal, decimal or to the base sixty. -/
def intOf (text : String) : Except Fault Int := do
  let (negative, body) ← splitNumber text
  let magnitude ← match body with
    | ['0'] => pure 0
    | '0' :: 'b' :: digits => numeralOf 2 digits
    | '0' :: 'x' :: digits => numeralOf 16 digits
    | '0' :: _ => numeralOf 8 body
    | [] => throw .emptyNumber
    | _ =>
      if body.contains ':' then sexagesimal <$> (Text.fieldRuns ':' body).mapM (numeralOf 10)
      else numeralOf 10 body
  return if negative then -magnitude else magnitude

/-- Reads a fraction. -/
def fractionOf (text : List Char) : Except Fault Binary64 :=
  match Binary64.readLoose? (String.ofList text) with
  | some x => .ok x
  | none => .error (.notFraction (String.ofList text))

/-- The value of fractions to the base sixty, the last one of the least weight; the parts are added
from the least weight on. -/
def sexagesimalFraction (parts : List Binary64) : Binary64 :=
  let weighed := parts.reverse.zipIdx.map fun (x, place) => x.mulNat (Nat.pow 60 place)
  weighed.foldl Binary64.add (.ofInt 0)

/-- Reads a fraction, infinity, or the value that is no number. -/
def floatOf (text : String) : Except Fault Binary64 := do
  let (negative, body) ← splitNumber (Text.toLower text)
  if body = ".nan".toList then return .nan
  let magnitude ←
    if body = ".inf".toList then pure (.infinite false)
    else if body.contains ':' then
      sexagesimalFraction <$> (Text.fieldRuns ':' body).mapM fractionOf
    else fractionOf body
  return if negative then magnitude.neg else magnitude

/-- What a character stands for in base 64. -/
def sextet? (c : Char) : Option Nat :=
  if 'A' ≤ c ∧ c ≤ 'Z' then some (c.toNat - 65)
  else if 'a' ≤ c ∧ c ≤ 'z' then some (c.toNat - 71)
  else if '0' ≤ c ∧ c ≤ '9' then some (c.toNat + 4)
  else if c = '+' then some 62
  else if c = '/' then some 63
  else none

/-- Decodes base 64, where `held` are the sextets of a group so far and `pads` the padding behind
them. Other characters are passed over, and the first complete padding ends the data. -/
def bytesFrom (held : List Nat) (pads : Nat) : List Char → Option (List UInt8)
  | [] => if held.isEmpty then some [] else none
  | c :: rest =>
    if c = '=' then
      if 2 ≤ held.length then
        if 4 ≤ held.length + (pads + 1) then some [] else bytesFrom held (pads + 1) rest
      else bytesFrom held pads rest
    else match sextet? c, held with
      | none, _ => bytesFrom held pads rest
      | some s, [] => bytesFrom [s] 0 rest
      | some s, [a] => (bytesFrom [a, s] 0 rest).map (UInt8.ofNat (a * 4 + s / 16) :: ·)
      | some s, [a, b] =>
        (bytesFrom [a, b, s] 0 rest).map (UInt8.ofNat (b % 16 * 16 + s / 4) :: ·)
      | some s, held =>
        (bytesFrom [] 0 rest).map (UInt8.ofNat (held.getLastD 0 % 4 * 64 + s) :: ·)

/-- Reads bytes in base 64. -/
def bytesOf (text : String) : Except Fault (List UInt8) :=
  if text.toList.all fun c => c.toNat < 128 then
    match bytesFrom [] 0 text.toList with
    | some bytes => .ok bytes
    | none => .error .malformed
  else .error .malformed

/-- The day of the given year, month and day, if there is one. -/
def dayOf (parts : Tag.MomentParts) : Except Fault Day :=
  if parts.year = 0 then .error (.yearOutOfRange parts.year)
  else if parts.month = 0 ∨ 12 < parts.month then .error .monthOutOfRange
  else if parts.day = 0 ∨ Day.daysIn parts.year parts.month < parts.day then .error .dayOutOfRange
  else .ok ⟨parts.year, parts.month, parts.day⟩

/-- The offset of a clock in minutes, which has to be less than a day. -/
def offsetOf : Option (Bool × Nat × Nat) → Except Fault (Option Int)
  | none => .ok none
  | some (negative, hours, minutes) =>
    let total : Int := hours * 60 + minutes
    let signed := if negative then -total else total
    if 24 * 60 ≤ total then .error (.offsetOutOfRange signed) else .ok (some signed)

/-- The fraction of a second that digits stand for, in millionths. -/
def microsecondsOf (digits : List Char) : Nat :=
  let six := (digits ++ List.replicate 6 '0').take 6
  Numeral.ofDigits 10 (six.filterMap Text.digitValue?)

/-- Reads a day or a point in time. -/
def momentOf (text : String) : Except Fault Scalar := do
  let chars := text.toList
  let line := if chars.getLast? = some '\n' then chars.dropLast else chars
  let some parts := Tag.moment? line | throw .notMoment
  match parts.time with
  | none => return .day (← dayOf parts)
  | some (hour, minute, second, fraction) =>
    let offset ← offsetOf parts.offset
    let day ← dayOf parts
    if 23 < hour then throw .hourOutOfRange
    if 59 < minute then throw .minuteOutOfRange
    if 59 < second then throw .secondOutOfRange
    return .moment ⟨day, hour, minute, second, microsecondsOf fraction, offset⟩

/-- The value of a scalar, none if its tag is one of a collection. -/
def scalarOf? (tag : Tag) (text : String) : Option (Except Fault Scalar) :=
  match tag with
  | .null => some (.ok .null)
  | .bool => some (truthOf text)
  | .int => some ((intOf text).map .int)
  | .float => some ((floatOf text).map .float)
  | .binary => some ((bytesOf text).map .bytes)
  | .timestamp => some (momentOf text)
  | .text => some (.ok (.text text))
  | .merge | .value | .unknown => some (.error .malformed)
  | .orderedMap | .pairs | .set | .sequence | .mapping => none

/-! ## Collections -/

namespace Node

/-- The key `=` as a text. -/
def plainKey : Node → Node
  | .scalar .value text => .scalar .text text
  | key => key

/-- Whether a key asks for the pairs of other mappings. -/
def isMergeKey : Node → Bool
  | .scalar .merge _ => true
  | .sequence .merge _ => true
  | .mapping .merge _ => true
  | _ => false

mutual

/-- The pairs of a mapping, after those that it takes from others; none if what it takes them from
is no mapping. From itself it takes nothing new. -/
def flatten? : Node → Option (List (Node × Node))
  | .mapping _ pairs => do
    let (merged, own) ← flattenPairs? pairs
    return merged ++ own
  | .inside true => some []
  | _ => none
termination_by structural node => node

/-- The pairs that a mapping takes from others, and its own. -/
def flattenPairs? : List (Node × Node) → Option (List (Node × Node) × List (Node × Node))
  | [] => some ([], [])
  | pair :: rest => do
    let (merged, own) ← flattenPair? pair
    let (others, following) ← flattenPairs? rest
    return (merged ++ others, own ++ following)
termination_by structural pairs => pairs

/-- What one pair adds. -/
def flattenPair? : Node × Node → Option (List (Node × Node) × List (Node × Node))
  | (key, value) =>
    if key.isMergeKey then (taken? value).map (·, []) else some ([], [(key.plainKey, value)])
termination_by structural pair => pair

/-- The pairs taken from a mapping, or from several, of which the first wins. -/
def taken? : Node → Option (List (Node × Node))
  | .mapping _ pairs => do
    let (merged, own) ← flattenPairs? pairs
    return merged ++ own
  | .sequence _ items => (takenAll? items).map fun lists => lists.reverse.flatten
  | .inside true => some []
  | _ => none
termination_by structural node => node

/-- The pairs of several mappings. -/
def takenAll? : List Node → Option (List (List (Node × Node)))
  | [] => some []
  | item :: rest => do return (← flatten? item) :: (← takenAll? rest)
termination_by structural items => items

end

mutual

/-- How deep collections are nested in a node. -/
def depth : Node → Nat
  | .sequence _ items => depthAll items + 1
  | .mapping _ pairs => depthPairs pairs + 1
  | _ => 0
termination_by structural node => node

/-- How deep collections are nested in nodes. -/
def depthAll : List Node → Nat
  | [] => 0
  | item :: rest => max (depth item) (depthAll rest)
termination_by structural items => items

/-- How deep collections are nested in pairs. -/
def depthPairs : List (Node × Node) → Nat
  | [] => 0
  | pair :: rest => max (depthPair pair) (depthPairs rest)
termination_by structural pairs => pairs

/-- How deep collections are nested in a pair. -/
def depthPair : Node × Node → Nat
  | (key, value) => max (depth key) (depth value)
termination_by structural pair => pair

end

/-- The text of a scalar; a mapping with the key `=` stands for the value of that key. The first
argument bounds how often. -/
def scalarText? (bound : Nat) : Node → Option String
  | .scalar _ text => some text
  | .mapping _ pairs =>
    match bound with
    | 0 => none
    | bound + 1 =>
      match pairs.find? fun pair => match pair.1 with
        | .scalar .value _ => true
        | _ => false with
      | some pair => scalarText? bound pair.2
      | none => none
  | _ => none

/-- The tag of a node. -/
def tag? : Node → Option Tag
  | .scalar tag _ | .sequence tag _ | .mapping tag _ => some tag
  | .inside _ => none

/-- The results of a list, each worked out by itself. -/
def gather {α β : Type} (f : α → Graded β) (items : List α) : Graded (List β) :=
  items.foldr (fun item rest => Graded.both List.cons (f item) rest) (.ok [])

/-- What is left out of a collection that holds itself. -/
def ellipsis (ofMapping : Bool) : Data :=
  if ofMapping then .set [.ellipsis] else .list [.scalar .ellipsis]

/-- A value as the key of a mapping, which has to be a scalar whatever its parts are. -/
def asKey (level : Nat) (value : Graded Data) : Graded Scalar :=
  match value with
  | .ok (.scalar key) => .ok key
  | .ok _ => .fail level .malformed
  | .error (depth, fault) => if level < depth then .fail level .malformed else .fail depth fault

/-- The only pair of a mapping. -/
def onlyPair? : Node → Option (Node × Node)
  | .mapping _ [pair] => some pair
  | _ => none

/-- The data of a node at a distance from the root. The first argument bounds how deep it goes. -/
def dataFrom (bound level : Nat) (node : Node) : Graded Data :=
  match bound, node with
  | _, .inside ofMapping => .ok (ellipsis ofMapping)
  | 0, _ => .fail level .malformed
  | bound + 1, node =>
    let tag := node.tag?.getD .unknown
    match scalarOf? tag "", node with
    | some _, node =>
      match node.scalarText? (node.depth + 1) with
      | some text =>
        Graded.place level (((scalarOf? tag text).getD (.error .malformed)).map .scalar)
      | none => .fail level .malformed
    | none, .sequence .sequence items => (gather (dataFrom bound (level + 1)) items).map .list
    | none, .sequence _ items =>
      if tag = .pairs ∨ tag = .orderedMap then
        let entry := fun item => match onlyPair? item with
          | some (key, value) =>
            Graded.both (fun k v => Data.tuple [k, v]) (dataFrom bound (level + 1) key)
              (dataFrom bound (level + 1) value)
          | none => .fail (level + 1) .malformed
        (gather entry items).map .list
      else .fail (level + 1) .malformed
    | none, .mapping _ _ =>
      let entry := fun (pair : Node × Node) =>
        Graded.both Prod.mk (asKey (level + 1) (dataFrom bound (level + 1) pair.1))
          (dataFrom bound (level + 1) pair.2)
      match (if tag = .mapping ∨ tag = .set then node.flatten? else none) with
      | some pairs =>
        (gather entry pairs).map fun pairs =>
          let entries := Entries.ofPairs pairs
          if tag = .set then .set (entries.map Prod.fst) else .map entries
      | none => .fail (level + 1) .malformed
    | none, _ => .fail (level + 1) .malformed

/-- The data of a node. -/
def toData (node : Node) : Except Fault Data :=
  (dataFrom (node.depth + 1) 0 node).mapError Prod.snd

end Node

/-- The data that a text stands for; a text without a document stands for no value. -/
def read (text : String) : Except Fault Data := do
  match ← Node.ofLexemes? (Lexeme.ofText text.toList) with
  | some root => root.toData
  | none => return .scalar .null

end ShellPrompt.Yaml
