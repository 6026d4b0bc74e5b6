/-
Messages are read back as they were formatted, from the text and from its octets. The one thing that
keeps a message from having a text, besides values that JSON does not know, is an integer with too
many digits.
-/
import LspClient.Message
import LspClient.Proofs.Json.RoundTrip

namespace LspClient.Message

open Json (Portable)

/-- Formatting gives a text, and the message is read back from it and from its octets, by every limit
that the text is not beyond. -/
def ReadBack (formatted : Except Fault String) (m : Message) : Prop :=
  ∃ text, formatted = .ok text ∧ ∀ limit : Number, limit.lt (.int text.length) = false →
    parse (.text text.toList) limit = .ok m ∧ parse (.octets (Text.encode text)) limit = .ok m

/-- A name that no member has. -/
def Fresh (name : String) (members : List (String × Value)) : Prop :=
  ∀ m ∈ members, m.1 ≠ name

/-! ## Objects -/

/-- An object that stands for a message. -/
theorem readBack_printObject {members : List (String × Value)} {m : Message} (h : Portable (.object members))
    (hm : ofValue (.object members) = .ok m) : ReadBack (printObject members) m := by
  refine ⟨String.ofList (Json.render (.object members)), ?_, fun limit within => ?_⟩
  · unfold printObject
    rw [Json.print_portable h]
    rfl
  · have size : (Text.encode (String.ofList (Json.render (.object members)))).length =
        (String.ofList (Json.render (.object members))).length := by
      rw [Json.length_encode (Json.isPrintable_render _), String.length_ofList]
    unfold parse
    constructor
    · have size : (Body.text (String.ofList (Json.render (.object members))).toList).size =
          (String.ofList (Json.render (.object members))).length := String.length_toList
      rw [size, within]
      simp only [Bool.false_eq_true, ite_false, Body.read, String.toList_ofList, Json.readChars_render h]
      exact hm
    · have size : (Body.octets (Text.encode (String.ofList (Json.render (.object members))))).size =
          (String.ofList (Json.render (.object members))).length := size
      rw [size, within]
      simp only [Bool.false_eq_true, ite_false, Body.read, Json.readOctets_render h]
      exact hm

/-! ### Members -/

section Members

variable {name key : String} {v : Value} {members : List (String × Value)}

theorem optional_cases (name : String) (v : Value) :
    v = .null ∧ optional name v = [] ∨ optional name v = [(name, v)] := by
  unfold optional
  split
  · exact .inl ⟨rfl, rfl⟩
  · exact .inr rfl

theorem portable_optional (h : Portable v) : Portable (.object (optional name v)) := by
  rcases optional_cases name v with ⟨_, none⟩ | some
  · rw [none]
    exact .object (by simp) (by simp)
  · rw [some]
    exact .object (by simp) (by simpa using h)

/-- One more member, under a name of its own. -/
theorem portable_cons (h : Portable v) (fresh : Fresh name members) (others : Portable (.object members)) :
    Portable (.object ((name, v) :: members)) := by
  cases others with
  | object distinct all =>
    refine .object (List.nodup_cons.2 ⟨fun used => ?_, distinct⟩) (List.forall_mem_cons.2 ⟨h, all⟩)
    obtain ⟨m, hm, e⟩ := List.mem_map.1 used
    exact fresh m hm e

theorem fresh_optional (other : key ≠ name) : Fresh name (optional key v) := by
  intro m hm
  rcases optional_cases key v with ⟨_, none⟩ | some
  · rw [none] at hm
    cases hm
  · rw [some] at hm
    rw [List.mem_singleton.1 hm]
    exact other

theorem Fresh.cons (h : Fresh name members) (other : key ≠ name) : Fresh name ((key, v) :: members) :=
  List.forall_mem_cons.2 ⟨other, h⟩

end Members

/-! ## Messages -/

section Messages

variable {id : RequestId} {method : String} {params value data : Value} {code : Int} {message : String}

theorem responseId?_toValue (id : RequestId) : responseId? id.toValue = some id := by
  cases id <;> rfl

theorem readBack_error (portableId : Portable id.toValue) (portableCode : Portable (.int code))
    (portable : Portable data) :
    ReadBack (formatError id code message data)
      (.error id (("code", .int code) :: ("message", .str message) :: optional "data" data)) := by
  have described : Portable (.object (("message", .str message) :: optional "data" data)) :=
    portable_cons (.str _) (fresh_optional (by decide)) (portable_optional portable)
  have members : Portable (.object (("code", .int code) :: ("message", .str message) :: optional "data" data)) :=
    portable_cons portableCode ((fresh_optional (by decide)).cons (by decide)) described
  unfold formatError
  refine readBack_printObject (.object (by simp [version]) ?_) ?_
  · simp only [version, List.forall_mem_cons, List.not_mem_nil, false_implies, implies_true, and_true]
    exact ⟨.str _, portableId, members⟩
  · simp [ofValue, ofResponse, version, Value.lookup, responseId?_toValue]

end Messages

end LspClient.Message
