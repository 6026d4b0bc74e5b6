/-
Settings files. A file without a value stands for the settings with all their defaults.
-/
import LspClient.Path
import LspClient.Settings
import LspClient.Yaml.Reader

namespace LspClient.Settings

/-- Every way to end a line becomes a line feed. -/
def unifyLineEnds : List Char → List Char
  | [] => []
  | '\r' :: '\n' :: rest => '\n' :: unifyLineEnds rest
  | '\r' :: rest => '\n' :: unifyLineEnds rest
  | c :: rest => c :: unifyLineEnds rest

/-- The text of a file. An unfinished character at the end is read apart from what is before. -/
def decodeFile (octets : Octets) : Except Fault (List Char) :=
  match Text.decode false octets with
  | .ok cs => .ok (unifyLineEnds cs)
  | .error f =>
    if f.reason = .unexpectedEnd then
      .error (.undecodable { f with start := 0, stop := f.stop - f.start })
    else .error (.undecodable f)

/-- The fault of a text that has no value. -/
def textFault : Yaml.ReadFault → Fault
  | .malformed problem place =>
    .configuration ("Failed to parse settings YAML: " ++ Yaml.malformation problem place) []
  | .scalar f => f

/-- The settings that the text of a file writes. -/
def ofText (env : Environment) (text : List Char) : Except Fault Settings := do
  let v ← (Yaml.read text).mapError textFault
  match v with
  | .null => return {}
  | v =>
    if v.isMapping then ofValue env v
    else throw (.configuration "Settings must be a YAML mapping" [])

/-- Loads settings from a file. -/
def load (d : Directory) (env : Environment) (path : Path) : Except Fault Settings := do
  match d.find? path with
  | none => throw (.configuration ("Settings file not found: " ++ path.text) [])
  | some .directory => throw (.system .isDirectory [.int 21, .str "Is a directory", .str path.text])
  | some (.file octets) => ofText env (← decodeFile octets)

end LspClient.Settings
