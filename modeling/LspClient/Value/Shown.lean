/-
Which values messages can show. An integer of more digits than may be converted to text cannot be
shown, nor can anything that holds one.
-/
import LspClient.Json.Printer

namespace LspClient.Value

mutual

/-- Whether messages can show a value. -/
def isShowable : Value → Bool
  | int n => (Json.digitsFault? n).isNone
  | list items | set items => areShowable items
  | object members => areShowableMembers members
  | map entries => areShowableEntries entries
  | _ => true

/-- Whether messages can show items. -/
def areShowable : List Value → Bool
  | [] => true
  | v :: rest => v.isShowable && areShowable rest

/-- Whether messages can show members. -/
def areShowableMembers : List (String × Value) → Bool
  | [] => true
  | (_, v) :: rest => v.isShowable && areShowableMembers rest

/-- Whether messages can show entries. -/
def areShowableEntries : List (Value × Value) → Bool
  | [] => true
  | (k, v) :: rest => k.isShowable && v.isShowable && areShowableEntries rest

end

end LspClient.Value
