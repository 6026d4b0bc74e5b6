/-
Log entries as formatters see them: a template with arguments, and whatever else was set on the
entry. What is set under the name of a standard attribute changes that attribute or nothing.
-/
import LspClient.Log
import LspClient.Text.Template

namespace LspClient.Log

structure Entry where
  logger : Value
  level : Value
  template : Value
  arguments : Text.Template.Arguments := .many []
  /-- Seconds since the start of 1970. -/
  created : Value
  /-- What is carried beside that, in the order in which it was set. -/
  extras : List (String × Value) := []
  fault : Option Fault := none
  stack : Value := .null
  deriving Inhabited

/-- The names of the attributes that every entry has. -/
def standardNames : List String :=
  ["args", "asctime", "created", "exc_info", "exc_text", "filename", "funcName", "levelname",
    "levelno", "lineno", "message", "module", "msecs", "msg", "name", "pathname", "process",
    "processName", "relativeCreated", "stack_info", "thread", "threadName"]

namespace Entry

/-- Sets an attribute. -/
def set (e : Entry) (name : String) (v : Value) : Entry :=
  match name with
  | "name" => { e with logger := v }
  | "levelname" => { e with level := v }
  | "msg" => { e with template := v }
  | "args" => { e with arguments := .one v }
  | "created" => { e with created := v }
  | "exc_info" => if v.isTruthy then e else { e with fault := none }
  | "stack_info" => { e with stack := v }
  | _ =>
    if standardNames.contains name then e
    else { e with extras := Value.store name v e.extras }

/-- The message of an entry: the template with its arguments filled in, if there are any. -/
def message (e : Entry) : Except Fault String :=
  if e.arguments.isPresent then Text.Template.fill e.template.text e.arguments
  else .ok e.template.text

end Entry

/-- The entry of a record of this program. -/
def Record.entry (r : Record) : Entry where
  logger := .str r.source.logger
  level := .str r.level.name
  template := .str r.message
  created := .float r.created
  extras := r.fields
  fault := r.fault

end LspClient.Log
