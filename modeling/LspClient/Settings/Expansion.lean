/-
References to environment variables inside settings: `$` and a name in braces. Known names are
replaced by their values in one pass from left to right; unknown references stay as they are.
-/
import LspClient.Value

namespace LspClient.Settings

/-- What references are looked up in. -/
structure Environment where
  bindings : List (String × String)
  /-- The directory that stands for the name `HOME` when no such variable is set. -/
  home : String
  deriving Inhabited

namespace Environment

/-- The value of a variable. -/
def get? (env : Environment) (name : String) : Option String :=
  (env.bindings.find? fun v => v.1 = name).map (·.2)

/-- What a reference to a name is replaced by, if anything. -/
def resolve? (env : Environment) (name : String) : Option String :=
  (env.get? name).or (if name = "HOME" then some env.home else none)

end Environment

/-- The name of a reference whose opening brace has just been passed, and what follows it. -/
def referenceName? (cs : List Char) : Option (List Char × List Char) :=
  let name := cs.takeWhile (· != '}')
  match cs.drop name.length with
  | '}' :: rest => if name.isEmpty then none else some (name, rest)
  | _ => none

/-- Replaces references after passing over `skip` characters. -/
def expandFrom (env : Environment) : Nat → List Char → List Char
  | _, [] => []
  | skip + 1, _ :: cs => expandFrom env skip cs
  | 0, c :: cs =>
    match c, cs with
    | '$', '{' :: afterBrace =>
      match referenceName? afterBrace with
      | some (name, _) =>
        match env.resolve? (String.ofList name) with
        | some value => value.toList ++ expandFrom env (name.length + 2) cs
        | none => ('$' :: '{' :: name) ++ '}' :: expandFrom env (name.length + 2) cs
      | none => c :: expandFrom env 0 cs
    | _, _ => c :: expandFrom env 0 cs

/-- The names that a text may refer to. -/
def referencedNames : List Char → List String
  | [] => []
  | c :: cs =>
    match c, cs with
    | '$', '{' :: afterBrace =>
      match referenceName? afterBrace with
      | some (name, _) => String.ofList name :: referencedNames cs
      | none => referencedNames cs
    | _, _ => referencedNames cs

/-- A text with its references replaced. -/
def expand (env : Environment) (s : String) : String :=
  String.ofList (expandFrom env 0 s.toList)

mutual

/-- Replaces the references in all texts of a value, keys excepted. -/
def expandValue (env : Environment) : Value → Value
  | .str s => .str (expand env s)
  | .list items => .list (expandItems env items)
  | .object members => .object (expandMembers env members)
  | .map entries => .map (expandEntries env entries)
  | v => v

/-- Replaces the references in items. -/
def expandItems (env : Environment) : List Value → List Value
  | [] => []
  | v :: rest => expandValue env v :: expandItems env rest

/-- Replaces the references in the values of members. -/
def expandMembers (env : Environment) : List (String × Value) → List (String × Value)
  | [] => []
  | (k, v) :: rest => (k, expandValue env v) :: expandMembers env rest

/-- Replaces the references in the values of entries. -/
def expandEntries (env : Environment) : List (Value × Value) → List (Value × Value)
  | [] => []
  | (k, v) :: rest => (k, expandValue env v) :: expandEntries env rest

end

end LspClient.Settings
