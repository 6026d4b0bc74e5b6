/-
What counts as an integer in a text: digits with single underscores between them, a sign before
them, and blanks around the whole. The grammar is a relation; what is read is exactly what it
relates, texts that it leaves out included.
-/
import LspClient.Proofs.Text.Integer

namespace LspClient.Text

/-! ## Trimming -/

section Trim

variable {α : Type} {test : α → Bool} {before xs after : List α}

/-- Blanks around a text make no difference. -/
theorem trimBoth_append (hb : ∀ x ∈ before, test x = true) (ha : ∀ x ∈ after, test x = true) :
    trimBoth test (before ++ xs ++ after) = trimBoth test xs := by
  unfold trimBoth
  rw [List.append_assoc, List.dropWhile_append_of_pos hb, List.dropWhile_append]
  split
  case isTrue none =>
    have all : after.dropWhile test = [] := by
      rw [← List.append_nil after, List.dropWhile_append_of_pos ha, List.dropWhile_nil]
    rw [all, List.isEmpty_iff.1 none]
  case isFalse some =>
    rw [List.reverse_append, List.dropWhile_append_of_pos fun x hx => ha x (List.mem_reverse.1 hx)]

/-- Trimming takes away blanks at both ends. -/
theorem exists_trimBoth (test : α → Bool) (xs : List α) : ∃ before after,
    xs = before ++ trimBoth test xs ++ after ∧ (∀ x ∈ before, test x = true) ∧ ∀ x ∈ after, test x = true := by
  refine ⟨xs.takeWhile test, ((xs.dropWhile test).reverse.takeWhile test).reverse, ?_, ?_, ?_⟩
  · unfold trimBoth
    rw [List.append_assoc, ← List.reverse_append, List.takeWhile_append_dropWhile, List.reverse_reverse,
      List.takeWhile_append_dropWhile]
  · exact fun x hx => List.all_eq_true.1 (List.all_takeWhile) x hx
  · exact fun x hx => List.all_eq_true.1 (List.all_takeWhile) x (List.mem_reverse.1 hx)

/-- Nothing is taken away where no blank is at an end. -/
theorem trimBoth_eq_self (hh : ∀ x, xs.head? = some x → test x = false)
    (hl : ∀ x, xs.getLast? = some x → test x = false) : trimBoth test xs = xs := by
  have head : xs.dropWhile test = xs := by
    cases xs with
    | nil => rfl
    | cons x xs => exact dropWhile_of_head (hh x rfl)
  have last : xs.reverse.dropWhile test = xs.reverse := by
    cases hr : xs.reverse with
    | nil => rfl
    | cons x ys => exact dropWhile_of_head (hl x (by rw [List.getLast?_eq_head?_reverse, hr]; rfl))
  unfold trimBoth
  rw [head, last, List.reverse_reverse]

end Trim

/-! ## Digits -/

/-- Digits with at most one underscore between two of them, and the digits alone. -/
inductive Grouped : List Char → List Char → Prop
  | one {c : Char} (digit : Json.isDigit c = true) : Grouped [c] [c]
  | next {c : Char} {cs ds : List Char} (digit : Json.isDigit c = true) (rest : Grouped cs ds) :
    Grouped (c :: cs) (c :: ds)
  | underscore {c : Char} {cs ds : List Char} (digit : Json.isDigit c = true) (rest : Grouped cs ds) :
    Grouped (c :: '_' :: cs) (c :: ds)

theorem not_isDigit_underscore : Json.isDigit '_' = false := by
  decide

/-- Groups of digits begin with a digit and end with one. -/
theorem Grouped.ends {cs ds : List Char} (h : Grouped cs ds) :
    (∃ c, cs.head? = some c ∧ Json.isDigit c = true) ∧ ∃ c, cs.getLast? = some c ∧ Json.isDigit c = true := by
  induction h with
  | one digit => exact ⟨⟨_, rfl, digit⟩, _, rfl, digit⟩
  | next digit rest ih =>
    obtain ⟨_, c, hc, hd⟩ := ih
    refine ⟨⟨_, rfl, digit⟩, c, ?_, hd⟩
    rw [List.getLast?_cons, hc]
    rfl
  | underscore digit rest ih =>
    obtain ⟨_, c, hc, hd⟩ := ih
    refine ⟨⟨_, rfl, digit⟩, c, ?_, hd⟩
    rw [List.getLast?_cons, List.getLast?_cons, hc]
    rfl

/-- Exactly the grouped digits are read. -/
theorem groupedDigits?_iff {cs ds : List Char} : groupedDigits? cs = some ds ↔ Grouped cs ds := by
  constructor
  · intro h
    fun_induction groupedDigits? cs generalizing ds with
    | case1 => cases h
    | case2 c digit =>
      cases h
      exact .one digit
    | case3 => cases h
    | case4 c rest digit ih =>
      obtain ⟨ds, hr, rfl⟩ := Option.map_eq_some_iff.1 h
      exact .underscore digit (ih hr)
    | case5 => cases h
    | case6 c rest _ _ digit ih =>
      obtain ⟨ds, hr, rfl⟩ := Option.map_eq_some_iff.1 h
      exact .next digit (ih hr)
    | case7 => cases h
  · intro h
    induction h with
    | one digit => rw [groupedDigits?, if_pos digit]
    | @next c cs ds digit rest ih =>
      obtain ⟨⟨d, hd, isDigit⟩, _⟩ := rest.ends
      cases cs with
      | nil => cases hd
      | cons d' cs =>
        cases hd
        have : d ≠ '_' := by
          rintro rfl
          cases not_isDigit_underscore.symm.trans isDigit
        rw [groupedDigits?.eq_4 c (d :: cs) (by simp) (by simpa using this), if_pos digit, ih]
        rfl
    | underscore digit rest ih =>
      rw [groupedDigits?, if_pos digit, ih]
      rfl

/-! ## Integers -/

/-- The signs that may stand before the digits, and whether they make the number negative. -/
inductive Sign : List Char → Bool → Prop
  | none : Sign [] false
  | plus : Sign ['+'] false
  | minus : Sign ['-'] true

/-- A text that writes an integer: one of few enough digits. -/
inductive Writes : List Char → Int → Prop
  | intro {before sign cs ds after : List Char} {negative : Bool} (hb : ∀ c ∈ before, isBlank c = true)
    (hs : Sign sign negative) (hd : Grouped cs ds) (few : ds.length ≤ Json.maxIntegerDigits)
    (ha : ∀ c ∈ after, isBlank c = true) :
    Writes (before ++ (sign ++ cs) ++ after)
      (if negative then -(Json.digitsValue ds : Int) else (Json.digitsValue ds : Int))

/-- No blank is at an end of a sign and digits. -/
theorem trimBoth_signed {sign cs ds : List Char} {negative : Bool} (hs : Sign sign negative) (hd : Grouped cs ds) :
    trimBoth isBlank (sign ++ cs) = sign ++ cs := by
  obtain ⟨⟨c, hc, digit⟩, d, hl, digit'⟩ := hd.ends
  refine trimBoth_eq_self (fun x hx => ?_) fun x hx => ?_
  · cases hs with
    | none =>
      rw [List.nil_append, hc] at hx
      cases hx
      exact isBlank_of_isDigit digit
    | plus =>
      cases hx
      decide
    | minus =>
      cases hx
      decide
  · rw [List.getLast?_append, hl] at hx
    cases hx
    exact isBlank_of_isDigit digit'

theorem signOf_signed {sign cs ds : List Char} {negative : Bool} (hs : Sign sign negative) (hd : Grouped cs ds) :
    signOf (sign ++ cs) = (negative, cs) := by
  cases hs with
  | plus => rfl
  | minus => rfl
  | none =>
    obtain ⟨⟨c, hc, digit⟩, _⟩ := hd.ends
    cases cs with
    | nil => cases hc
    | cons c' cs =>
      cases hc
      unfold signOf
      split
      · rename_i he
        cases he
        cases digit
      · rename_i he
        cases he
        cases digit
      · rfl

theorem exists_signOf (cs : List Char) : ∃ sign, cs = sign ++ (signOf cs).2 ∧ Sign sign (signOf cs).1 := by
  unfold signOf
  split
  · exact ⟨['-'], rfl, .minus⟩
  · exact ⟨['+'], rfl, .plus⟩
  · exact ⟨[], rfl, .none⟩

/-- The integers that are read are those that texts write. -/
theorem integer?_iff {cs : List Char} {n : Int} : integer? (String.ofList cs) = some n ↔ Writes cs n := by
  unfold integer?
  rw [String.toList_ofList]
  constructor
  · intro h
    obtain ⟨before, after, hx, hb, ha⟩ := exists_trimBoth isBlank cs
    obtain ⟨sign, hs, sgn⟩ := exists_signOf (trimBoth isBlank cs)
    simp only at h
    split at h
    case h_1 ds hd =>
      split at h
      case isTrue => cases h
      case isFalse few =>
        cases h
        have := Writes.intro hb sgn (groupedDigits?_iff.1 hd) (Nat.le_of_not_lt few) ha
        rwa [← hs, ← hx] at this
    case h_2 => cases h
  · rintro ⟨hb, hs, hd, few, ha⟩
    rw [trimBoth_append hb ha, trimBoth_signed hs hd, signOf_signed hs hd]
    simp only [groupedDigits?_iff.2 hd, if_neg (Nat.not_lt.2 few)]

/-- Blanks around a text make no difference to the integer it writes. -/
theorem integer?_strip {before cs after : List Char} (hb : ∀ c ∈ before, isBlank c = true)
    (ha : ∀ c ∈ after, isBlank c = true) :
    integer? (strip (String.ofList (before ++ cs ++ after))) = integer? (String.ofList cs) := by
  unfold strip integer?
  rw [String.toList_ofList, String.toList_ofList, String.toList_ofList, trimBoth_append hb ha]
  obtain ⟨before', after', hx, hb', ha'⟩ := exists_trimBoth isBlank cs
  have twice : trimBoth isBlank (trimBoth isBlank cs) = trimBoth isBlank cs := by
    have : trimBoth isBlank (before' ++ trimBoth isBlank cs ++ after') = _ := trimBoth_append hb' ha'
    rw [← hx] at this
    exact this.symm
  rw [twice]

end LspClient.Text
