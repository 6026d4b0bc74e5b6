/-
The command line. Options may be cut short as long as they stay unambiguous, short options may be
run together, and a value may follow its option in the same word. Asking for help or for the
version ends the program, in the order of the words; words that are neither options nor their
values are faults.
-/
import LspClient.Path
import LspClient.Text.Quoted

namespace LspClient.CommandLine

/-- The options of the program. -/
inductive Switch where
  | help
  | config
  | debug
  | resync
  | logLevel
  | version
  deriving DecidableEq, Inhabited

namespace Switch

/-- Every option with its spellings. -/
def spellings : List (Switch × List String) :=
  [(help, ["-h", "--help"]), (config, ["--config", "-c"]), (debug, ["--debug"]),
    (resync, ["--resync"]), (logLevel, ["--log-level"]), (version, ["--version", "-v"])]

/-- Every spelling with its option. -/
def bySpelling : List (String × Switch) :=
  spellings.flatMap fun (s, names) => names.map fun name => (name, s)

/-- The option with a spelling. -/
def ofSpelling? (name : String) : Option Switch :=
  bySpelling.lookup name

/-- Whether a value belongs to an option. -/
def takesValue : Switch → Bool
  | config | logLevel => true
  | _ => false

/-- How messages call an option. -/
def title (s : Switch) : String :=
  "/".intercalate ((spellings.lookup s).getD [])

end Switch

/-- The name of the program. -/
def program : String := "ls-session"

/-- The version of the program. -/
def version : String := "1.0.0"

/-- The log levels that can be chosen. -/
def levels : List String :=
  ["DEBUG", "INFO", "WARNING", "ERROR", "CRITICAL"]

/-- The log levels as messages list them. -/
def levelList : String :=
  "\x7b" ++ ",".intercalate levels ++ "\x7d"

/-- The summary of the options. -/
def usage : String :=
  "usage: " ++ program ++ " [-h] [--config CONFIG] [--debug] [--resync]\n"
    ++ "                  [--log-level " ++ levelList ++ "]\n"
    ++ "                  [--version]\n"

/-- The answer to a call for help. -/
def helpText : String :=
  usage ++ "\nLanguage server protocol session runner\n\noptions:\n"
    ++ "  -h, --help            show this help message and exit\n"
    ++ "  --config CONFIG, -c CONFIG\n"
    ++ "                        Path to settings YAML file (default: built-in\n"
    ++ "                        settings)\n"
    ++ "  --debug               Connect to a server listening on the debug port\n"
    ++ "                        instead of spawning one\n"
    ++ "  --resync              Send an inventory resync once the session is running\n"
    ++ "  --log-level " ++ levelList ++ "\n"
    ++ "                        Override the log level from the settings\n"
    ++ "  --version, -v         show program's version number and exit\n"

/-- What was chosen. -/
structure Choices where
  config : Option Path := none
  debug : Bool := false
  resync : Bool := false
  logLevel : Option String := none
  deriving DecidableEq, Inhabited

/-- An early end of the program. -/
structure Exit where
  code : Nat
  output : String := ""
  errors : String := ""
  deriving DecidableEq, Inhabited

namespace Exit

/-- The end for words that cannot be understood. -/
def fault (message : String) : Exit where
  code := 2
  errors := usage ++ program ++ ": error: " ++ message ++ "\n"

/-- The end for an option that is misused. -/
def misuse (s : Switch) (message : String) : Exit :=
  fault ("argument " ++ s.title ++ ": " ++ message)

/-- The end for a value at an option that takes none. -/
def unusedValue (s : Switch) (value : String) : Exit :=
  misuse s ("ignored explicit argument " ++ Text.quoted value)

end Exit

/-! ## Words -/

/-- A value in the same word as its option. -/
structure Joined where
  /-- Whether an equals sign stands in front of it. -/
  assigned : Bool
  value : List Char
  deriving DecidableEq, Inhabited

/-- An option that a word spells. -/
structure Spelled where
  switch : Switch
  spelling : String
  joined : Option Joined := none
  deriving DecidableEq, Inhabited

inductive Word where
  | argument (text : String)
  /-- Two dashes: all that follows are arguments. -/
  | divider
  /-- An option, or none of those that there are. -/
  | switch (text : String) (spelled : Option Spelled)
  deriving DecidableEq, Inhabited

/-- The part of a word in front of its first equals sign, and the value behind it. -/
def assignment (cs : List Char) : String × Option Joined :=
  let name := cs.takeWhile (· != '=')
  (String.ofList name, match cs.drop name.length with
    | _ :: value => some ⟨true, value⟩
    | [] => none)

/-- The options that a word may stand for, which spells none of them in full. -/
def candidates (cs : List Char) : List Spelled :=
  match cs with
  | '-' :: '-' :: _ =>
    let (start, joined) := assignment cs
    Switch.bySpelling.filterMap fun (name, s) =>
      if name.startsWith start then some ⟨s, name, joined⟩ else none
  | _ =>
    let word := String.ofList cs
    Switch.bySpelling.filterMap fun (name, s) =>
      if name = String.ofList (cs.take 2) then some ⟨s, name, some ⟨false, cs.drop 2⟩⟩
      else if name.startsWith word then some ⟨s, name, none⟩
      else none

/-- Whether a word is a negative number. -/
def isNegativeNumber (cs : List Char) : Bool :=
  match cs with
  | '-' :: rest =>
    let whole := rest.takeWhile Char.isDigit
    match rest.drop whole.length with
    | [] => !whole.isEmpty
    | '.' :: fraction => !fraction.isEmpty && fraction.all Char.isDigit
    | _ => false
  | _ => false

/-- What a word is. -/
def classify (text : String) : Except Exit Word :=
  let cs := text.toList
  if cs.head? != some '-' then .ok (.argument text)
  else
    match Switch.ofSpelling? text with
    | some s => .ok (.switch text (some ⟨s, text, none⟩))
    | none =>
      if cs.length = 1 then .ok (.argument text)
      else
        let (name, joined) := assignment cs
        match joined, Switch.ofSpelling? name with
        | some j, some s => .ok (.switch text (some ⟨s, name, some j⟩))
        | _, _ =>
          match candidates cs with
          | [found] => .ok (.switch text (some found))
          | [] =>
            if isNegativeNumber cs || cs.contains ' ' then .ok (.argument text)
            else .ok (.switch text none)
          | several =>
            .error (.fault ("ambiguous option: " ++ text ++ " could match "
              ++ ", ".intercalate (several.map (·.spelling))))

/-- What the words are. -/
def classifyAll : List String → Except Exit (List Word)
  | [] => .ok []
  | text :: rest =>
    if text = "--" then .ok (.divider :: rest.map .argument)
    else do
      let word ← classify text
      return word :: (← classifyAll rest)

/-! ## Options -/

/-- What one word asks for. -/
structure Request where
  /-- Options in their order, with their values. -/
  settled : List (Switch × String) := []
  /-- The last option, if its value is the next word. -/
  pending : Option Switch := none
  /-- What is left of the word and is no option. -/
  extra : Option String := none
  deriving Inhabited

/-- The value behind a short option that was run together with another one. -/
def restOfWord (cs : List Char) : Option Joined :=
  match cs with
  | [] => none
  | '=' :: value => some ⟨true, value⟩
  | cs => some ⟨false, cs⟩

/-- Whether other options can be run together with one. -/
def isShort (spelling : String) : Bool :=
  (spelling.toList.drop 1).head? != some '-'

/-- What an option asks for. The first argument bounds how many options are run together. -/
def requestOf : Nat → Spelled → Except Exit Request
  | 0, _ => .ok {}
  | fuel + 1, ⟨s, spelling, joined⟩ =>
    match joined with
    | none => if s.takesValue then .ok { pending := some s } else .ok { settled := [(s, "")] }
    | some j =>
      if s.takesValue then .ok { settled := [(s, String.ofList j.value)] }
      else
        match j.value with
        | c :: rest =>
          if !isShort spelling || j.assigned || c = '-' then
            .error (.unusedValue s (String.ofList j.value))
          else
            let next := String.ofList ['-', c]
            match Switch.ofSpelling? next with
            | some t => do
              let r ← requestOf fuel ⟨t, next, restOfWord rest⟩
              return { r with settled := (s, "") :: r.settled }
            | none =>
              .ok { settled := [(s, "")], extra := some (String.ofList ('-' :: j.value)) }
        | [] => .error (.unusedValue s "")

/-- Does what an option asks for. -/
def choose (c : Choices) (s : Switch) (value : String) : Except Exit Choices :=
  match s with
  | .help => .error { code := 0, output := helpText }
  | .version => .error { code := 0, output := program ++ " " ++ version ++ "\n" }
  | .config => .ok { c with config := some (.ofText value) }
  | .debug => .ok { c with debug := true }
  | .resync => .ok { c with resync := true }
  | .logLevel =>
    if levels.contains value then .ok { c with logLevel := some value }
    else
      .error (.misuse .logLevel ("invalid choice: " ++ Text.quoted value ++ " (choose from "
        ++ ", ".intercalate (levels.map Text.quoted) ++ ")"))

/-- Does what options ask for. -/
def chooseAll (c : Choices) (settled : List (Switch × String)) : Except Exit Choices :=
  settled.foldlM (fun c (s, value) => choose c s value) c

/-- What the words choose, and the words that choose nothing. -/
def collect : Choices → List Word → Except Exit (Choices × List String)
  | c, [] => .ok (c, [])
  | c, .argument text :: rest => do
    let (c, extras) ← collect c rest
    return (c, text :: extras)
  | c, .divider :: rest => do
    let (c, extras) ← collect c rest
    return (c, "--" :: extras)
  | c, .switch text none :: rest => do
    let (c, extras) ← collect c rest
    return (c, text :: extras)
  | c, .switch text (some spelled) :: rest => do
    let r ← requestOf (text.length + 1) spelled
    match r.pending, rest with
    | some s, .argument value :: rest =>
      collect (← chooseAll c (r.settled ++ [(s, value)])) rest
    | some s, _ => throw (.misuse s "expected one argument")
    | none, rest =>
      let (c, extras) ← collect (← chooseAll c r.settled) rest
      return (c, r.extra.toList ++ extras)

/-- What the words of a command line choose. -/
def parse (words : List String) : Except Exit Choices := do
  let (c, extras) ← collect {} (← classifyAll words)
  if extras.isEmpty then return c
  throw (.fault ("unrecognized arguments: " ++ " ".intercalate extras))

end LspClient.CommandLine
