/-
A small language of schemas: a schema is a list of rules that a value must keep, and each rule
that a value breaks is reported with the place and a message. Rules about one type of value accept
every value of another type.
-/
import LspClient.Number
import LspClient.Value.Shown

namespace LspClient.Settings

/-- The types that a rule can ask for. -/
inductive TypeName where
  | string
  | null
  | object
  | array
  | boolean
  | number
  | integer
  deriving DecidableEq, Inhabited

namespace TypeName

/-- The name of a type. -/
def text : TypeName → String
  | string => "string"
  | null => "null"
  | object => "object"
  | array => "array"
  | boolean => "boolean"
  | number => "number"
  | integer => "integer"

/-- Whether a value is of a type. A double without fractional part is an integer; booleans are no
numbers. -/
def admits : TypeName → Value → Bool
  | string, .str _ => true
  | null, .null => true
  | object, .object _ | object, .map _ => true
  | array, .list _ => true
  | boolean, .bool _ => true
  | number, .int _ | number, .float _ => true
  | integer, .int _ => true
  | integer, .float x => Decimal.isWhole x
  | _, _ => false

variable {v : Value}

theorem string_admits : string.admits v = true ↔ ∃ s, v = .str s := by
  cases v with
  | str s => exact ⟨fun _ => ⟨s, rfl⟩, fun _ => rfl⟩
  | _ => exact ⟨nofun, fun ⟨_, h⟩ => nomatch h⟩

theorem null_admits : null.admits v = true ↔ v = .null := by
  cases v with
  | null => exact ⟨fun _ => rfl, fun _ => rfl⟩
  | _ => exact ⟨nofun, nofun⟩

theorem object_admits : object.admits v = v.isMapping := by
  cases v <;> rfl

theorem array_admits : array.admits v = true ↔ ∃ items, v = .list items := by
  cases v with
  | list items => exact ⟨fun _ => ⟨items, rfl⟩, fun _ => rfl⟩
  | _ => exact ⟨nofun, fun ⟨_, h⟩ => nomatch h⟩

theorem boolean_admits : boolean.admits v = true ↔ ∃ b, v = .bool b := by
  cases v with
  | bool b => exact ⟨fun _ => ⟨b, rfl⟩, fun _ => rfl⟩
  | _ => exact ⟨nofun, fun ⟨_, h⟩ => nomatch h⟩

end TypeName

inductive Rule where
  | type (names : List TypeName)
  | oneOf (choices : List String)
  | nonEmptyText
  | nonEmptyList
  | minimum (bound : Int)
  | maximum (bound : Int)
  | above (bound : Int)
  /-- The value keeps the rules of at least one of the schemas. -/
  | anyOf (schemas : List (List Rule))
  /-- Every item of a list keeps the rules. -/
  | items (rules : List Rule)
  /-- A member with one of the names keeps the rules listed for it. -/
  | properties (members : List (String × List Rule))
  /-- A mapping has no members but these. -/
  | noneBut (names : List String)
  /-- Every member keeps the rules. -/
  | members (rules : List Rule)
  deriving Inhabited

/-- A schema. -/
abbrev Schema := List Rule

/-- A broken rule: the keys and indices that lead to the value, what is wrong with it, and the values
that the message shows. -/
structure Violation where
  path : List Value
  message : String
  shown : List Value
  deriving Inhabited

namespace Violation

/-- The texts of the keys and indices that lead to the value. -/
def steps (v : Violation) : List String :=
  v.path.map Value.text

/-- The place of a violation as text. -/
def location (v : Violation) : String :=
  let joined := ".".intercalate v.steps
  if joined.isEmpty then "<root>" else joined

/-- Place and message. -/
def text (v : Violation) : String :=
  v.location ++ ": " ++ v.message

/-- Whether place and message have a text. -/
def isTellable (v : Violation) : Bool :=
  (v.path ++ v.shown).all Value.isShowable

/-- The order in which violations are listed. -/
def le (a b : Violation) : Bool :=
  !decide (b.steps < a.steps)

/-- Something wrong with a value itself. -/
def ofValue (v : Value) (wording : String) : Violation :=
  ⟨[], v.literal ++ wording, [v]⟩

end Violation

/-- The entries of a mapping, the keys as values; other values have none. -/
def entriesOf : Value → List (Value × Value)
  | .object members => members.map fun (k, v) => (.str k, v)
  | .map entries => entries
  | _ => []

/-- The keys of a mapping that are not among the names. -/
def unexpectedKeys (names : List String) (v : Value) : List Value :=
  ((entriesOf v).map (·.1)).filter fun k =>
    match k with
    | .str s => !names.contains s
    | _ => true

/-- The message about keys that are not allowed. -/
def unexpectedMessage (keys : List Value) : String :=
  let sorted := keys.mergeSort fun a b => decide (a.text ≤ b.text)
  let verb := if keys.length = 1 then "was" else "were"
  "Additional properties are not allowed (" ++ ", ".intercalate (sorted.map Value.literal) ++ " "
    ++ verb ++ " unexpected)"

/-- The member of a mapping with a string as key. -/
def memberOf? (v : Value) (name : String) : Option Value :=
  match v with
  | .object members => Value.lookup name members
  | .map entries => (entries.find? fun e => e.1.asString? = some name).map (·.2)
  | _ => none

/-- The violation of a bound on numbers, if the value is a number and breaks it. -/
def boundViolation (v : Value) (broken : Number → Bool) (wording : String) (bound : Int) :
    List Violation :=
  match Number.ofValue? v with
  | some n => if broken n then [.ofValue v (wording ++ toString bound)] else []
  | none => []

/-- Puts a step in front of the paths of violations. -/
def under (step : Value) (found : List Violation) : List Violation :=
  found.map fun x => { x with path := step :: x.path }

mutual

/-- The rules of a schema that a value breaks, in the order of the schema. -/
def brokenRules : List Rule → Value → List Violation
  | [], _ => []
  | rule :: rest, v => broken rule v ++ brokenRules rest v

/-- How a value breaks a rule. -/
def broken : Rule → Value → List Violation
  | .type names, v =>
    if names.any fun name => name.admits v then []
    else
      [.ofValue v (" is not of type " ++
        ", ".intercalate (names.map fun name => Text.quoted name.text))]
  | .oneOf choices, v =>
    if choices.any fun c => v.asString? = some c then []
    else [.ofValue v (" is not one of " ++ (Value.list (choices.map .str)).literal)]
  | .nonEmptyText, v =>
    match v with
    | .str s => if s.isEmpty then [.ofValue v " should be non-empty"] else []
    | _ => []
  | .nonEmptyList, v =>
    match v with
    | .list items => if items.isEmpty then [.ofValue v " should be non-empty"] else []
    | _ => []
  | .minimum bound, v =>
    boundViolation v (fun n => n.lt (.int bound)) " is less than the minimum of " bound
  | .maximum bound, v =>
    boundViolation v (fun n => (Number.int bound).lt n) " is greater than the maximum of " bound
  | .above bound, v =>
    boundViolation v (fun n => n.le (.int bound)) " is less than or equal to the minimum of " bound
  | .anyOf schemas, v =>
    if acceptsAny schemas v then []
    else [.ofValue v " is not valid under any of the given schemas"]
  | .items rules, v =>
    match v with
    | .list items =>
      items.zipIdx.flatMap fun (item, i) => under (.int i) (brokenRules rules item)
    | _ => []
  | .properties members, v => brokenMembers members v
  | .noneBut names, v =>
    let keys := unexpectedKeys names v
    if keys.isEmpty then [] else [⟨[], unexpectedMessage keys, keys⟩]
  | .members rules, v =>
    (entriesOf v).flatMap fun (k, item) => under k (brokenRules rules item)

/-- Whether a value keeps the rules of at least one schema. -/
def acceptsAny : List (List Rule) → Value → Bool
  | [], _ => false
  | rules :: rest, v => (brokenRules rules v).isEmpty || acceptsAny rest v

/-- How the named members of a mapping break their rules. -/
def brokenMembers : List (String × List Rule) → Value → List Violation
  | [], _ => []
  | (name, rules) :: rest, v =>
    (match memberOf? v name with
      | some item => under (.str name) (brokenRules rules item)
      | none => []) ++ brokenMembers rest v

end

section Equations

-- Values are checked by recursion on lists inside lists of rules, where unfolding is slow: the equations hold by
-- definition, and nothing else needs to be opened.
variable {rule : Rule} {rules : Schema} {schemas : List Schema} {members : List (String × Schema)} {v : Value}
  {name : String}

theorem brokenRules_nil : brokenRules [] v = [] := rfl

theorem brokenRules_cons : brokenRules (rule :: rules) v = broken rule v ++ brokenRules rules v := rfl

theorem acceptsAny_cons : acceptsAny (rules :: schemas) v = ((brokenRules rules v).isEmpty || acceptsAny schemas v) :=
  rfl

theorem brokenMembers_cons : brokenMembers ((name, rules) :: members) v =
    (match memberOf? v name with
      | some item => under (.str name) (brokenRules rules item)
      | none => []) ++ brokenMembers members v :=
  rfl

theorem broken_type_eq {names : List TypeName} : broken (.type names) v =
    if names.any fun name => name.admits v then []
    else [.ofValue v (" is not of type " ++ ", ".intercalate (names.map fun name => Text.quoted name.text))] :=
  rfl

theorem broken_oneOf_eq {choices : List String} : broken (.oneOf choices) v =
    if choices.any fun c => v.asString? = some c then []
    else [.ofValue v (" is not one of " ++ (Value.list (choices.map .str)).literal)] :=
  rfl

theorem broken_nonEmptyText_str {s : String} : broken .nonEmptyText (.str s) =
    if s.isEmpty then [.ofValue (.str s) " should be non-empty"] else [] :=
  rfl

theorem broken_nonEmptyList_list {items : List Value} : broken .nonEmptyList (.list items) =
    if items.isEmpty then [.ofValue (.list items) " should be non-empty"] else [] :=
  rfl

theorem broken_anyOf_eq : broken (.anyOf schemas) v =
    if acceptsAny schemas v then [] else [.ofValue v " is not valid under any of the given schemas"] :=
  rfl

theorem broken_items_list {items : List Value} : broken (.items rules) (.list items) =
    items.zipIdx.flatMap fun (item, i) => under (.int i) (brokenRules rules item) :=
  rfl

theorem broken_properties_eq : broken (.properties members) v = brokenMembers members v := rfl

theorem broken_noneBut_eq {names : List String} : broken (.noneBut names) v =
    if (unexpectedKeys names v).isEmpty then []
    else [⟨[], unexpectedMessage (unexpectedKeys names v), unexpectedKeys names v⟩] :=
  rfl

theorem broken_members_eq : broken (.members rules) v =
    (entriesOf v).flatMap fun (k, item) => under k (brokenRules rules item) :=
  rfl

end Equations

/-- All violations of a schema, in the order in which they are listed. -/
def Schema.violations (schema : Schema) (v : Value) : List Violation :=
  (brokenRules schema v).mergeSort Violation.le

end LspClient.Settings
