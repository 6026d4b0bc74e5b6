/-
The set-up of the log: how grave a record has to be, and where and in which form it is written.
Setting up again replaces the handler of the set-up before.
-/
import LspClient.Log.Format

namespace LspClient.Log

/-- Where lines are written, and in which form. -/
structure Handler where
  stream : Nat
  json : Bool
  deriving DecidableEq, Inhabited

structure Setup where
  level : Int := 50
  handlers : List Handler := []
  deriving DecidableEq, Inhabited

/-- The level that counts where none is set. -/
def rootLevel : Int := 30

/-- The numbers of the names of levels, among them names beside those of the five levels. -/
def levelNumbers : List (String × Int) :=
  (Level.all.map fun l => (l.name, (l.number : Int))) ++ [("FATAL", 50), ("WARN", 30), ("NOTSET", 0)]

/-- The number of a level that is given by its name or its number. -/
def levelOf (v : Value) : Except Fault Int :=
  match v with
  | .int n => .ok n
  | .bool b => .ok (if b then 1 else 0)
  | .str s =>
    let name := String.ofList (s.toList.map Char.toUpper)
    match levelNumbers.lookup name with
    | some n => .ok n
    | none => .error (.invalid ("Unknown level: " ++ Text.quoted name))
  | v => .error (.type ("Level not an integer or a valid string: " ++ v.literal))

namespace Setup

/-- Sets up the log. The handler is replaced even if the level is none. -/
def configure (s : Setup) (level : Value) (json : Bool) (stream : Nat) :
    Except Fault Unit × Setup :=
  let s := { s with handlers := [⟨stream, json⟩] }
  match levelOf level with
  | .ok n => (.ok (), { s with level := n })
  | .error f => (.error f, s)

/-- Whether a logger is one of this program. -/
def owns (logger : String) : Bool :=
  logger = root || logger.startsWith (root ++ ".")

/-- Whether records of a level are written. -/
def admits (s : Setup) (level : Int) : Bool :=
  decide ((if s.level = 0 then rootLevel else s.level) ≤ level)

/-- What an entry adds to the streams. Entries that cannot be formatted are dropped. -/
def written (s : Setup) (e : Entry) : List (Nat × String) :=
  s.handlers.filterMap fun h =>
    match line h.json e with
    | .ok text => some (h.stream, text ++ "\n")
    | .error _ => none

/-- Logs a message with extras, whose names may not be those of standard attributes. The result is
what is added to the streams. -/
def log (s : Setup) (logger : String) (level : Value) (template : Value) (arguments : List Value)
    (extras : List (String × Value)) (created : Float) : Except Fault (List (Nat × String)) := do
  let number ← levelOf level
  if !s.admits number then return []
  match extras.find? fun (name, _) => standardNames.contains name with
  | some (name, _) =>
    throw (.missingKey (.str ("Attempt to overwrite " ++ Text.quoted name ++ " in LogRecord")))
  | none =>
    if !owns logger then return []
    return s.written {
      logger := .str logger
      level
      template
      arguments := .ofValues arguments
      created := .float created
      extras }

/-- What a record of this program adds to the streams. -/
def ofRecord (s : Setup) (r : Record) : List (Nat × String) :=
  if s.admits r.level.number then s.written r.entry else []

end Setup

end LspClient.Log
