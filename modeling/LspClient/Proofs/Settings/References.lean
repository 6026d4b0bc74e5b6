/-
References in texts. A text is scanned once, from left to right: a reference is a dollar sign with a name in braces
behind it, and behind the closing brace the scan goes on. So a text falls into pieces, and which pieces these are
depends on the text alone. Expanding a text replaces those of its pieces that are references to known names, each for
itself; what a reference is replaced by is not looked at again.
-/
import LspClient.Settings.Expansion
import Mathlib.Data.List.TakeWhile
import Mathlib.Order.WellFounded

namespace LspClient.Settings

/-! ## Definitions -/

/-- A name that can be referred to. -/
structure IsName (name : String) : Prop where
  nonempty : name ≠ ""
  unclosed : '}' ∉ name.toList

/-- A reference to a name. -/
def reference (name : String) : String :=
  "$\x7b" ++ name ++ "\x7d"

/-- What a reference to a name is replaced by: the value of the variable, be it empty; without such a variable the home
directory for `HOME`, and the reference itself for any other name. -/
def replacement (env : Environment) (name : String) : String :=
  match env.get? name with
  | some value => value
  | none => if name = "HOME" then env.home else reference name

/-- The first reference in a text, with what is before it and what is after it. -/
structure FirstReference (s before name after : String) : Prop where
  split : s = before ++ reference name ++ after
  isName : IsName name
  first : ∀ b n a, s = b ++ reference n ++ a → IsName n → before.length ≤ b.length

/-- Whether a text has a reference anywhere. -/
def Refers (s : String) : Prop :=
  ∃ before name after, s = before ++ reference name ++ after ∧ IsName name

/-- A piece of a text. -/
inductive Piece where
  | plain (s : String)
  | reference (name : String)

/-- What stands for a piece after expansion. -/
def Piece.expanded (env : Environment) : Piece → String
  | plain s => s
  | reference name => replacement env name

/-- The pieces of a text, from left to right. -/
inductive Scan : String → List Piece → Prop
  | done {s : String} : ¬ Refers s → Scan s [.plain s]
  | next {s before name after : String} {pieces : List Piece} :
    FirstReference s before name after → Scan after pieces → Scan s (.plain before :: .reference name :: pieces)

variable {env : Environment} {s before name after : String} {cs ds : List Char} {c : Char}

/-! ## References -/

theorem toList_reference (name : String) : (reference name).toList = '$' :: '{' :: (name.toList ++ ['}']) := by
  unfold reference
  rw [String.toList_append, String.toList_append]
  rfl

theorem toList_reference_append (name : String) (cs : List Char) :
    (reference name).toList ++ cs = '$' :: '{' :: (name.toList ++ '}' :: cs) := by
  simp [toList_reference]

/-- A reference at some place of a text, in characters. -/
theorem eq_append_reference_iff :
    s = before ++ reference name ++ after ↔ s.toList = before.toList ++ ((reference name).toList ++ after.toList) := by
  rw [← String.toList_inj, String.toList_append, String.toList_append, List.append_assoc]

/-- The name up to the first closing brace. -/
theorem referenceName?_eq_some_iff {name rest : List Char} :
    referenceName? cs = some (name, rest) ↔ cs = name ++ '}' :: rest ∧ name ≠ [] ∧ '}' ∉ name := by
  have whole : cs.takeWhile (· != '}') ++ cs.dropWhile (· != '}') = cs := List.takeWhile_append_dropWhile
  have behind : cs.drop (cs.takeWhile (· != '}')).length = cs.dropWhile (· != '}') := by
    conv_lhs => arg 2; rw [← whole]
    exact List.drop_left' rfl
  unfold referenceName?
  dsimp only
  rw [behind]
  constructor
  · intro h
    split at h
    · next rest' closed =>
      split at h
      · cases h
      · next named =>
        cases h
        refine ⟨?_, by simpa using named, fun brace => ?_⟩
        · rw [← closed, whole]
        · simpa using List.mem_takeWhile_imp brace
    · cases h
  · rintro ⟨rfl, named, unclosed⟩
    have inside : ∀ c ∈ name, (c != '}') = true := by
      intro c hc
      rw [bne_iff_ne]
      rintro rfl
      exact unclosed hc
    rw [List.takeWhile_append_of_pos inside, List.dropWhile_append_of_pos inside]
    simp [named]

/-- What does not begin a reference stays as it is. -/
theorem expandFrom_cons (env : Environment)
    (h : ∀ name rest, IsName name → c :: cs ≠ (reference name).toList ++ rest) :
    expandFrom env 0 (c :: cs) = c :: expandFrom env 0 cs := by
  conv_lhs => unfold expandFrom
  split
  · next afterBrace =>
    split
    · next name rest found =>
      obtain ⟨split, named, unclosed⟩ := referenceName?_eq_some_iff.1 found
      refine absurd ?_ (h (String.ofList name) rest ⟨?_, ?_⟩)
      · rw [toList_reference_append, String.toList_ofList, split]
      · rwa [Ne, ← String.toList_inj, String.toList_ofList]
      · rwa [String.toList_ofList]
    · rfl
  · rfl

/-- So does all that is before the first reference. -/
theorem expandFrom_append (env : Environment) (first : ∀ b name rest, IsName name →
      cs ++ ds = b ++ ((reference name).toList ++ rest) → cs.length ≤ b.length) :
    expandFrom env 0 (cs ++ ds) = cs ++ expandFrom env 0 ds := by
  induction cs with
  | nil => rfl
  | cons c cs ih =>
    have stays : expandFrom env 0 (c :: (cs ++ ds)) = c :: expandFrom env 0 (cs ++ ds) := by
      refine expandFrom_cons env fun name rest isName split => ?_
      have := first [] name rest isName split
      simp at this
    rw [List.cons_append, stays, ih, List.cons_append]
    intro b name rest isName split
    have := first (c :: b) name rest isName (by rw [List.cons_append, List.cons_append, split])
    simpa using this

/-! ## Expanding texts -/

theorem toList_expand (env : Environment) (s : String) : (expand env s).toList = expandFrom env 0 s.toList :=
  String.toList_ofList

/-- A text without references stays as it is. -/
theorem expand_of_not_refers (env : Environment) (h : ¬ Refers s) : expand env s = s := by
  have whole : expandFrom env 0 (s.toList ++ []) = s.toList ++ expandFrom env 0 [] := by
    refine expandFrom_append env fun b name rest isName split => ?_
    refine absurd ⟨String.ofList b, name, String.ofList rest, ?_, isName⟩ h
    rw [eq_append_reference_iff, String.toList_ofList, String.toList_ofList, ← split, List.append_nil]
  rw [List.append_nil] at whole
  rw [← String.toList_inj, toList_expand, whole]
  simp [expandFrom]

/-! ## Pieces -/

/-- A brace inside a name belongs to the name, and a value that looks like a reference is none. -/
example : expand ⟨[("A", "$\x7bHOME\x7d")], "/root"⟩ "$\x7b$\x7bA\x7d $\x7bA\x7d $\x7b\x7d" =
    "$\x7b$\x7bA\x7d $\x7bHOME\x7d $\x7b\x7d" := by
  cbv

end LspClient.Settings
