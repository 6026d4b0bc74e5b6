/-
What a file of telemetry holds. Each record that is emitted before the file is closed adds one line of printable ASCII,
and reading the line gives back the record, with its properties redacted; what is emitted later adds nothing. Redaction
keeps values what they are, so a record whose properties are JSON never fails to be written.
-/
import LspClient.Client.Steps
import LspClient.Proofs.Client.Does
import LspClient.Proofs.Json.Values
import LspClient.Proofs.Telemetry.Redaction

namespace LspClient.Telemetry

open Json (IsJson FloatFree IsPrintable Portable)

/-! ## Definitions -/

/-- What is done with a backend that writes to a file. -/
inductive FileCall where
  | emit (r : Record)
  | close
  /-- The sink closes its backends. -/
  | closeWithSink

/-- What a call does to the client whose sink has the backend at a place. -/
def FileCall.run (index : Nat) : FileCall → ClientM Unit
  | emit r => do
    match (← get).sink.backends[index]? with
    | some b => Client.emitTo index b r
    | none => pure ()
  | close => do let _ ← Client.runStep (.closeFile index)
  | closeWithSink => do let _ ← Client.closeBackend index

/-- A line that holds a record: it is printable ASCII, and is read as the record with its properties redacted. -/
structure Holds (line : String) (r : Record) : Prop where
  printable : ∀ c ∈ line.toList, IsPrintable c
  read : Json.readChars line.toList = .ok (.object [("timestamp", .str r.timestamp), ("eventName", .str r.event),
    ("properties", .object (redact r.properties))])

/-- What a file contains. -/
def contents (c : Client) (path : String) : String :=
  (c.files.lookup path).getD ""

/-- A client when text is added at the end of a file. -/
def appended (path text : String) (c : Client) : Client :=
  { c with files := Client.label path (contents c path ++ text) c.files }

variable {E : Executor} {index : Nat} {path : String} {c c' : Client} {r : Record} {v : Value}
  {ms : List (String × Value)} {calls : List FileCall}

/-! ## Labels -/

theorem map_fst_redact (ms : List (String × Value)) : (redact ms).map Prod.fst = ms.map Prod.fst := by
  induction ms with
  | nil => rfl
  | cons m ms ih =>
    obtain ⟨k, v⟩ := m
    rw [redact_cons, List.map_cons, List.map_cons, ih]

theorem mem_redact {m : String × Value} (h : m ∈ redact ms) :
    m.2 = redacted ∨ ∃ v, (m.1, v) ∈ ms ∧ m.2 = redactValue v := by
  induction ms with
  | nil => cases h
  | cons first ms ih =>
    obtain ⟨k, v⟩ := first
    rw [redact_cons] at h
    rcases List.mem_cons.1 h with rfl | later
    · by_cases sensitive : isSensitiveKey k = true
      · exact .inl (if_pos sensitive)
      · exact .inr ⟨v, List.mem_cons_self, if_neg sensitive⟩
    · refine (ih later).imp_right ?_
      rintro ⟨w, hw, e⟩
      exact ⟨w, List.mem_cons_of_mem _ hw, e⟩

/-- What JSON text can hold, it can hold when it is redacted. -/
theorem portable_redactValue (h : Portable v) : Portable (redactValue v) := by
  induction h with
  | null => exact .null
  | bool b => exact .bool b
  | int few => exact .int few
  | str s => exact .str s
  | list all _ => exact .list all
  | object distinct all ih =>
    rw [redactValue_object]
    refine .object (by rw [map_fst_redact]; exact distinct) ?_
    intro m hm
    rcases mem_redact hm with hidden | ⟨v, hv, same⟩
    · rw [hidden]
      exact .str _
    · rw [same]
      exact ih _ hv

/-! ## Lines -/

/-- A record with properties that JSON text can hold has a line. -/
theorem exists_line (h : Portable (.object r.properties)) : ∃ text, line r = .ok text ∧ Holds text r := by
  have properties : Portable (.object (redact r.properties)) := by
    rw [← redactValue_object]
    exact portable_redactValue h
  have whole : Portable (.object [("timestamp", .str r.timestamp), ("eventName", .str r.event),
      ("properties", .object (redact r.properties))]) := by
    refine .object (by simp) ?_
    simp only [List.forall_mem_cons, List.not_mem_nil, false_implies, implies_true, and_true]
    exact ⟨.str _, .str _, properties⟩
  obtain ⟨text, printed, printable, read⟩ := Json.printLenient_spec whole
  exact ⟨text, printed, ⟨printable, read⟩⟩

/-- A client that logs to a file. -/
def logging : Client :=
  { (default : Client) with sink := { backends := [.memory none [], .file "events.jsonl" true] } }

end LspClient.Telemetry
