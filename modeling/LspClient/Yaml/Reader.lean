/-
The values of settings files. Mappings take over the entries of those merged into them, unless
they have entries of their own with the same keys; of two entries with the same key the later one
counts, at the place of the first. A fault in an outer collection is reported before one further
inside.
-/
import LspClient.Yaml.Node

namespace LspClient.Yaml

/-! ## Merging -/

/-- The entries that a value under a merge key contributes. -/
def mergedEntries : Node → Except ReadFault (List (Node × Node))
  | .mapping _ _ entries => .ok entries
  | .sequence _ _ items => do
    let parts ← items.mapM fun item =>
      match item with
      | .mapping _ _ entries => .ok entries
      | other => .error (.malformed .merge other.place)
    return parts.reverse.flatten
  | other => .error (.malformed .merge other.place)

/-- Entries with those that are merged into them in front. A plain equals sign is a key like any
other. -/
def mergeEntries (entries : List (Node × Node)) : Except ReadFault (List (Node × Node)) := do
  let merged ← (entries.filter fun (k, _) => k.tag = .merge).mapM fun (_, v) => mergedEntries v
  let own := (entries.filter fun (k, _) => k.tag != .merge).map fun (k, v) =>
    match k with
    | .scalar place .value text => (Node.scalar place .str text, v)
    | k => (k, v)
  return merged.flatten ++ own

mutual

/-- A node whose mappings, and those inside them, have no merge keys left. -/
def merge : Node → Except ReadFault Node
  | .scalar place tag text => .ok (.scalar place tag text)
  | .sequence place tag items => do return .sequence place tag (← mergeItems items)
  | .mapping place tag entries => do
    return .mapping place tag (← mergeEntries (← mergeMembers entries))

/-- Merges inside of items. -/
def mergeItems : List Node → Except ReadFault (List Node)
  | [] => .ok []
  | n :: rest => do return (← merge n) :: (← mergeItems rest)

/-- Merges inside of entries. -/
def mergeMembers : List (Node × Node) → Except ReadFault (List (Node × Node))
  | [] => .ok []
  | (k, v) :: rest => do return (← merge k, ← merge v) :: (← mergeMembers rest)

end

/-! ## Keys -/

/-- The number that a key counts as: truth values count as 0 and 1. -/
def keyNumber? : Value → Option Number
  | .bool b => some (.int (if b then 1 else 0))
  | v => Number.ofValue? v

/-- The point in time that a date with a zone names, in microseconds. -/
def instant? (t : CalendarTime) : Option Int :=
  t.offset.map fun m => t.toMicros - m * 60000000

/-- Whether two keys are the same. -/
def sameKey (a b : Value) : Bool :=
  match keyNumber? a, keyNumber? b with
  | some x, some y => x.compare? y == some .eq
  | none, none =>
    match a, b with
    | .null, .null => true
    | .str s, .str t => s = t
    | .bytes s, .bytes t => s = t
    | .date s, .date t => s = t
    | .dateTime s, .dateTime t =>
      match instant? s, instant? t with
      | some x, some y => x = y
      | none, none => s = t
      | _, _ => false
    | _, _ => false
  | _, _ => false

/-- Stores a value under a key: in place of the old value, or at the end for a new key. -/
def storeEntry (key value : Value) : List (Value × Value) → List (Value × Value)
  | [] => [(key, value)]
  | (k, v) :: rest =>
    if sameKey k key then (k, value) :: rest else (k, v) :: storeEntry key value rest

/-- The mapping of some entries; one whose keys are all texts is an object. -/
def mappingOf (entries : List (Value × Value)) : Value :=
  let entries := entries.foldl (fun done (k, v) => storeEntry k v done) []
  match entries.mapM fun (k, v) => k.asString?.map fun s => (s, v) with
  | some members => .object members
  | none => .map entries

/-! ## Values -/

/-- A fault and how deep inside of collections it lies. -/
structure DeepFault where
  depth : Nat
  fault : ReadFault

/-- Two results; of two faults the one that lies less deep, or else the first. -/
def both {α β : Type} (a : Except DeepFault α) (b : Except DeepFault β) : Except DeepFault (α × β) :=
  match a, b with
  | .ok x, .ok y => .ok (x, y)
  | .error f, .ok _ => .error f
  | .ok _, .error g => .error g
  | .error f, .error g => .error (if g.depth < f.depth then g else f)

/-- The alphabet of binary data. -/
def base64Digit? (c : Char) : Option Nat :=
  if 'A' ≤ c && c ≤ 'Z' then some (c.toNat - 'A'.toNat)
  else if 'a' ≤ c && c ≤ 'z' then some (c.toNat - 'a'.toNat + 26)
  else if '0' ≤ c && c ≤ '9' then some (c.toNat - '0'.toNat + 52)
  else if c = '+' then some 62
  else if c = '/' then some 63
  else none

/-- The octets of binary data. The arguments are the digits of the current group, which has four,
and how many padding characters have been met; other characters are passed over. -/
def base64 : List Nat → Nat → List Char → Option Octets
  | [], _, [] => some []
  | _, _, [] => none
  | group, pads, c :: rest =>
    if c = '=' then
      if 2 ≤ group.length && 4 ≤ group.length + pads + 1 then
        match group with
        | [a, b] => some [UInt8.ofNat (a * 4 + b / 16)]
        | [a, b, d] => some [UInt8.ofNat (a * 4 + b / 16), UInt8.ofNat (b % 16 * 16 + d / 4)]
        | _ => some []
      else base64 group (if 2 ≤ group.length then pads + 1 else pads) rest
    else
      match base64Digit? c with
      | none => base64 group pads rest
      | some e =>
        match group with
        | [a, b, d] =>
          (base64 [] 0 rest).map fun more =>
            UInt8.ofNat (a * 4 + b / 16) :: UInt8.ofNat (b % 16 * 16 + d / 4)
              :: UInt8.ofNat (d % 4 * 64 + e) :: more
        | _ => base64 (group ++ [e]) 0 rest

/-- The value of a scalar. -/
def scalarValue (place : Mark) (tag : Tag) (text : String) : Except ReadFault Value :=
  match tag with
  | .null => .ok .null
  | .bool => return .bool (← Scalar.truth text)
  | .int => return .int (← Scalar.integer text.toList)
  | .float => return .float (← Scalar.float text.toList)
  | .timestamp => Scalar.timestamp text
  | .str => .ok (.str text)
  | .binary =>
    if text.toList.all fun c => c.toNat < 0x80 then
      match base64 [] 0 text.toList with
      | some octets => .ok (.bytes octets)
      | none => .error (.malformed .binary place)
    else .error (.malformed .binary place)
  | .orderedMap | .pairs | .set | .seq | .map => .error (.malformed .nodeKind place)
  | .merge | .value | .other _ => .error (.malformed .unknownTag place)

/-- The fault of a collection whose tag is not that of its kind. -/
def misfit (place : Mark) (tag : Tag) : ReadFault :=
  match tag with
  | .merge | .value | .other _ => .malformed .unknownTag place
  | _ => .malformed .nodeKind place

/-- Checks that a key may key a mapping. -/
def checkKey (place : Mark) (v : Value) : Except ReadFault Unit :=
  if v.isHashable then .ok () else .error (.malformed .listKey place)

/-- The set of some keys. -/
def setOf (keys : List (Value × Value)) : Value :=
  let distinct := keys.foldl (fun done (k, v) => storeEntry k v done) []
  .set ((distinct.map (·.1)).mergeSort fun a b => decide (a.text ≤ b.text))

/-- The pairs of a list of mappings with one entry each. -/
def pairsOf (place : Mark) (items : List Value) : Except ReadFault Value := do
  let pairs ← items.mapM fun item =>
    match item with
    | .object [(k, v)] => .ok (Value.list [.str k, v])
    | .map [(k, v)] => .ok (.list [k, v])
    | _ => .error (.malformed .nodeKind place)
  return .list pairs

/-- Gives a fault its depth. -/
def deepen {α : Type} (depth : Nat) (r : Except ReadFault α) : Except DeepFault α :=
  r.mapError fun f => ⟨depth, f⟩

mutual

/-- The value of a node. -/
def valueOf (depth : Nat) : Node → Except DeepFault Value
  | .scalar place tag text => deepen depth (scalarValue place tag text)
  | .sequence place tag items =>
    match tag with
    | .seq => return .list (← valuesOf (depth + 1) items)
    | .orderedMap | .pairs => do
      let items ← valuesOf (depth + 1) items
      deepen depth (pairsOf place items)
    | tag => .error ⟨depth, misfit place tag⟩
  | .mapping place tag entries =>
    match tag with
    | .map => return mappingOf (← entriesOf (depth + 1) entries)
    | .set => return setOf (← entriesOf (depth + 1) entries)
    | tag => .error ⟨depth, misfit place tag⟩

/-- The values of items. -/
def valuesOf (depth : Nat) : List Node → Except DeepFault (List Value)
  | [] => .ok []
  | n :: rest => do
    let (v, vs) ← both (valueOf depth n) (valuesOf depth rest)
    return v :: vs

/-- The keys and values of entries. -/
def entriesOf (depth : Nat) : List (Node × Node) → Except DeepFault (List (Value × Value))
  | [] => .ok []
  | (k, v) :: rest => do
    let key := do
      let key ← valueOf depth k
      deepen depth (checkKey k.place key)
      return key
    let ((key, value), more) ← both (both key (valueOf depth v)) (entriesOf depth rest)
    return (key, value) :: more

end

/-- The value of a text; a text without a document has the value null. -/
def read (cs : List Char) : Except ReadFault Value := do
  match ← Node.ofTokens? (← tokens cs) with
  | none => return .null
  | some n => (valueOf 0 (← merge n)).mapError (·.fault)

end LspClient.Yaml
