/-
The values that messages and settings are made of, and the small operations every other module
needs on them. JSON text uses the constructors from `null` to `object`; settings files may also
hold dates, bytes, sets and mappings with keys that are not strings.
-/

namespace LspClient

/-- A byte string. -/
abbrev Octets := List UInt8

/-- A day of the calendar, as settings files write it. -/
structure CalendarDate where
  year : Nat
  month : Nat
  day : Nat
  deriving DecidableEq, Inhabited

/-- A point in time on a day, with the offset of its time zone in minutes when one is known. -/
structure CalendarTime where
  date : CalendarDate
  hour : Nat
  minute : Nat
  second : Nat
  micros : Nat
  offset : Option Int
  deriving DecidableEq, Inhabited

inductive Value where
  | null
  | bool (b : Bool)
  | int (n : Int)
  | float (x : Float)
  | str (s : String)
  | bytes (b : Octets)
  | date (d : CalendarDate)
  | dateTime (t : CalendarTime)
  | list (items : List Value)
  | set (items : List Value)
  /-- A mapping with string keys, in the order of insertion. -/
  | object (members : List (String × Value))
  /-- A mapping with at least one key that is not a string, in the order of insertion. -/
  | map (entries : List (Value × Value))
  deriving Inhabited

namespace Value

/-! ## Members of objects -/

/-- The value stored under a key in a list of members. -/
def lookup (key : String) : List (String × Value) → Option Value
  | [] => none
  | (k, v) :: rest => if k = key then some v else lookup key rest

/-- Stores a value under a key: in place of the old value, or at the end for a new key. -/
def store (key : String) (value : Value) : List (String × Value) → List (String × Value)
  | [] => [(key, value)]
  | (k, v) :: rest => if k = key then (k, value) :: rest else (k, v) :: store key value rest

/-- The member of an object; other values have none. -/
def get? (v : Value) (key : String) : Option Value :=
  match v with
  | object members => lookup key members
  | _ => none

/-- The member of an object, `null` standing for an absent one. -/
def getD (v : Value) (key : String) : Value :=
  (v.get? key).getD null

/-- Whether an object has the member. -/
def has (v : Value) (key : String) : Bool :=
  (v.get? key).isSome

@[simp] theorem lookup_nil (key : String) : lookup key [] = none := rfl

theorem lookup_store_self (key : String) (value : Value) (members : List (String × Value)) :
    lookup key (store key value members) = some value := by
  induction members with
  | nil => simp [store, lookup]
  | cons head rest ih =>
    obtain ⟨k, v⟩ := head
    by_cases h : k = key <;> simp [store, lookup, h, ih]

theorem lookup_store_of_ne {key other : String} (value : Value) (h : other ≠ key)
    (members : List (String × Value)) :
    lookup other (store key value members) = lookup other members := by
  induction members with
  | nil => simp [store, lookup, Ne.symm h]
  | cons head rest ih =>
    obtain ⟨k, v⟩ := head
    by_cases hk : k = key
    · subst hk
      simp [store, lookup, Ne.symm h]
    · simp [store, lookup, hk, ih]

/-- A member is found under its name if all names differ. -/
theorem lookup_eq_some_iff {members : List (String × Value)} (distinct : (members.map Prod.fst).Nodup)
    {name : String} {v : Value} : lookup name members = some v ↔ (name, v) ∈ members := by
  induction members with
  | nil => simp
  | cons first members ih =>
    obtain ⟨k, w⟩ := first
    rw [List.map_cons, List.nodup_cons] at distinct
    unfold lookup
    rw [List.mem_cons, Prod.mk.injEq]
    split
    · next same =>
      obtain rfl := same
      constructor
      · rintro ⟨⟩
        exact .inl ⟨rfl, rfl⟩
      · rintro (⟨-, rfl⟩ | later)
        · rfl
        · exact absurd (List.mem_map_of_mem later) distinct.1
    · next other =>
      rw [ih distinct.2]
      constructor
      · exact .inr
      · rintro (⟨rfl, -⟩ | later)
        · exact absurd rfl other
        · exact later

/-! ## Views -/

/-- The text of a string value. -/
def asString? : Value → Option String
  | str s => some s
  | _ => none

/-- The number of an integer value; booleans are not integers here. -/
def asInt? : Value → Option Int
  | int n => some n
  | _ => none

/-- The members of an object value. -/
def asObject? : Value → Option (List (String × Value))
  | object members => some members
  | _ => none

/-- The items of a list value. -/
def asList? : Value → Option (List Value)
  | list items => some items
  | _ => none

/-- Whether the value counts as true: everything but null, false, zero and what is empty. -/
def isTruthy : Value → Bool
  | null => false
  | bool b => b
  | int n => n != 0
  | float x => x != 0.0
  | str s => !s.isEmpty
  | bytes b => !b.isEmpty
  | date _ | dateTime _ => true
  | list items | set items => !items.isEmpty
  | object members => !members.isEmpty
  | map entries => !entries.isEmpty

/-- Whether the value is an object or another mapping. -/
def isMapping : Value → Bool
  | object _ | map _ => true
  | _ => false

/-- Whether a value may key a mapping: lists, sets and mappings may not. -/
def isHashable : Value → Bool
  | list _ | set _ | object _ | map _ => false
  | _ => true

end Value

end LspClient
