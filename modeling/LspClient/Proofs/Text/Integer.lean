/-
Reading back the integers that programs write: the decimal digits of a natural number stand for
that number, as long as there are not too many of them.
-/
import LspClient.Text.Integer

namespace LspClient.Text

/-! ## Digits -/

theorem isDigit_of_mem_toDigits {n : Nat} {c : Char} (h : c ∈ Nat.toDigits 10 n) : Json.isDigit c = true := by
  have := Nat.isDigit_of_mem_toDigits (by decide) (by decide) h
  unfold Char.isDigit at this
  unfold Json.isDigit
  simp only [Bool.and_eq_true, decide_eq_true_eq] at this ⊢
  exact this

theorem digitsValue_toDigits (n : Nat) : Json.digitsValue (Nat.toDigits 10 n) = n := by
  have h := Nat.ofDigitChars_ten_toDigits (n := n)
  rw [Nat.ofDigitChars_eq_foldl] at h
  unfold Json.digitsValue
  simpa only [Nat.mul_comm] using h

theorem groupedDigits?_of_isDigit : ∀ {cs : List Char}, cs ≠ [] → (∀ c ∈ cs, Json.isDigit c = true) →
    groupedDigits? cs = some cs
  | [c], _, h => by simp [groupedDigits?, h c]
  | c :: d :: rest, _, h => by
    have hd : d ≠ '_' := by
      rintro rfl
      have := h '_' (by simp)
      revert this
      decide
    have ih : groupedDigits? (d :: rest) = some (d :: rest) :=
      groupedDigits?_of_isDigit (by simp) fun e he => h e (List.mem_cons_of_mem c he)
    rw [groupedDigits?.eq_4 c (d :: rest) (by simp) (by simpa using hd), h c (by simp), ih]
    rfl

theorem isBlank_of_isDigit {c : Char} (h : Json.isDigit c = true) : isBlank c = false := by
  unfold Json.isDigit at h
  simp only [Bool.and_eq_true, decide_eq_true_eq, Char.le_def, UInt32.le_iff_toNat_le] at h
  obtain ⟨h1, h2⟩ := h
  have h1 : 48 ≤ c.toNat := h1
  have h2 : c.toNat ≤ 57 := h2
  unfold isBlank
  simp only [Bool.or_eq_false_iff, Bool.and_eq_false_iff, beq_eq_false_iff_ne, decide_eq_false_iff_not]
  omega

/-! ## Trimming -/

theorem dropWhile_of_head {α : Type} {test : α → Bool} {x : α} {xs : List α} (h : test x = false) :
    (x :: xs).dropWhile test = x :: xs := by
  simp [h]

/-- Text between blanks, if the text itself has none. -/
theorem trimBoth_between {α : Type} {test : α → Bool} {before xs after : List α} (hb : ∀ x ∈ before, test x = true)
    (hx : ∀ x ∈ xs, test x = false) (ha : ∀ x ∈ after, test x = true) :
    trimBoth test (before ++ xs ++ after) = xs := by
  unfold trimBoth
  cases xs with
  | nil =>
    have : ∀ x ∈ before ++ after, test x = true := fun x hm => (List.mem_append.1 hm).elim (hb x) (ha x)
    rw [List.append_nil, ← List.append_nil (before ++ after), List.dropWhile_append_of_pos this]
    rfl
  | cons x xs =>
    rw [List.append_assoc, List.dropWhile_append_of_pos hb, List.cons_append, dropWhile_of_head (hx x (by simp)),
      ← List.cons_append, List.reverse_append,
      List.dropWhile_append_of_pos fun y hy => ha y (List.mem_reverse.1 hy)]
    have hr : ∀ y ∈ (x :: xs).reverse, test y = false := fun y hy => hx y (List.mem_reverse.1 hy)
    cases hrev : (x :: xs).reverse with
    | nil => simp at hrev
    | cons y ys =>
      rw [dropWhile_of_head (hr y (by rw [hrev]; simp)), ← hrev, List.reverse_reverse]

/-! ## Integers -/

theorem signOf_of_isDigit {cs : List Char} (h : ∀ c ∈ cs, Json.isDigit c = true) : signOf cs = (false, cs) := by
  unfold signOf
  split
  · exact absurd (h '-' (by simp)) (by decide)
  · exact absurd (h '+' (by simp)) (by decide)
  · rfl

/-- A natural number is read back from its digits. -/
theorem integer?_toDigits {n : Nat} (h : (Nat.toDigits 10 n).length ≤ Json.maxIntegerDigits) :
    integer? (String.ofList (Nat.toDigits 10 n)) = some (n : Int) := by
  have digits : ∀ c ∈ Nat.toDigits 10 n, Json.isDigit c = true := fun c => isDigit_of_mem_toDigits
  have trimmed : trimBoth isBlank (Nat.toDigits 10 n) = Nat.toDigits 10 n := by
    have blank : ∀ c ∈ ([] : List Char), isBlank c = true := by simp
    have := trimBoth_between blank (fun c hc => isBlank_of_isDigit (digits c hc)) blank
    rwa [List.nil_append, List.append_nil] at this
  have grouped := groupedDigits?_of_isDigit Nat.toDigits_ne_nil digits
  have value := digitsValue_toDigits n
  unfold integer?
  rw [String.toList_ofList, trimmed]
  rw [signOf_of_isDigit digits]
  simp [grouped, value, Nat.not_lt.2 h]

end LspClient.Text
