/-
Integers as they are read: a sign or none and digits, up to where no number goes on (`Halts`). A zero stands
alone or in front of nothing: behind a zero that other digits follow the number is over.
-/
import LspClient.Json.Reader

namespace LspClient.Json

/-- No number goes on with what follows. -/
def Halts (rest : List Char) : Prop :=
  ∀ c, rest.head? = some c → isDigit c = false ∧ c ≠ '.' ∧ c ≠ 'e' ∧ c ≠ 'E'

/-- Digits behind a minus sign or none. -/
def signed (negative : Bool) (ds : List Char) : List Char :=
  if negative then '-' :: ds else ds

/-- Digits that are read to the last: there are some, and no superfluous zero stands before the others. -/
structure IsNumeral (ds : List Char) : Prop where
  ne_nil : ds ≠ []
  digits : ∀ d ∈ ds, isDigit d = true
  tidy : ds = ['0'] ∨ ds.head? ≠ some '0'

section Digits

variable {ds whole rest rest' : List Char} {negative : Bool} {v : Value}

theorem halts_nil : Halts [] := by
  rintro c h
  cases h

theorem skipBlanks_cons {c : Char} (h : isBlank c = false) : skipBlanks (c :: rest) = c :: rest := by
  rw [skipBlanks, if_neg (by rw [h]; exact Bool.false_ne_true)]

theorem isBlank_of_isDigit {c : Char} (h : isDigit c = true) : isBlank c = false := by
  refine Bool.eq_false_iff.2 fun blank => ?_
  simp only [isBlank, Bool.or_eq_true, decide_eq_true_eq] at blank
  rcases blank with ((rfl | rfl) | rfl) | rfl <;> cases h

/-- Digits are taken up to their end. -/
theorem takeDigits_append (digits : ∀ d ∈ ds, isDigit d = true) (h : Halts rest) :
    takeDigits (ds ++ rest) = (ds, rest) := by
  unfold takeDigits
  rw [List.takeWhile_append_of_pos digits, List.dropWhile_append_of_pos digits]
  cases rest with
  | nil => simp
  | cons c rest => simp [(h c rfl).1]

theorem IsNumeral.wholePart (n : IsNumeral ds) (h : Halts rest) : wholePart (ds ++ rest) = some (ds, rest) := by
  obtain ⟨ne, digits, tidy⟩ := n
  have taken := takeDigits_append digits h
  cases ds with
  | nil => exact absurd rfl ne
  | cons c ds =>
    rw [List.cons_append, Json.wholePart]
    rcases tidy with single | other
    · obtain ⟨rfl, rfl⟩ := List.cons.inj single
      rfl
    · have nonzero : c ≠ '0' := fun e => other (congrArg some e)
      rw [if_neg nonzero, if_pos (digits c List.mem_cons_self)]
      exact congrArg some taken

theorem fractionPart_of_ne (h : ∀ c, rest.head? = some c → c ≠ '.') : fractionPart rest = ([], rest) := by
  unfold fractionPart
  split
  · exact absurd rfl (h '.' rfl)
  · rfl

theorem exponentPart_of_ne (h : ∀ c, rest.head? = some c → c ≠ 'e' ∧ c ≠ 'E') : exponentPart rest = (none, rest) := by
  unfold exponentPart
  split
  case h_1 c tail =>
    obtain ⟨small, large⟩ := h c rfl
    rw [if_neg (by simp [small, large])]
  case h_2 => rfl

/-- A sign or none is told from the digits behind it. -/
theorem sign_signed (digit : ∀ d, ds.head? = some d → isDigit d = true) (ne : ds ≠ []) (rest : List Char) :
    (match signed negative ds ++ rest with
      | '-' :: body => (true, body)
      | _ => (false, signed negative ds ++ rest)) = (negative, ds ++ rest) := by
  cases negative with
  | true => rfl
  | false =>
    cases ds with
    | nil => exact absurd rfl ne
    | cons d ds =>
      have digit := digit d rfl
      unfold signed
      split
      · rename_i body heq
        cases heq
        cases digit
      · rfl

/-- An integer is what its digits before the point are, if neither a point nor an exponent follows. -/
theorem readNumber_signed (digit : ∀ d, ds.head? = some d → isDigit d = true) (ne : ds ≠ [])
    (hw : wholePart (ds ++ rest) = some (whole, rest'))
    (ends : ∀ c, rest'.head? = some c → c ≠ '.' ∧ c ≠ 'e' ∧ c ≠ 'E') :
    readNumber (signed negative ds ++ rest) =
    some (if maxIntegerDigits < whole.length then .error (.tooManyDigits whole.length)
      else .ok (.int (if negative then -(digitsValue whole : Int) else digitsValue whole), rest')) := by
  unfold Json.readNumber
  split
  rename_i negative' body sign
  cases sign.symm.trans (sign_signed digit ne rest)
  simp only [hw, Option.map_some, fractionPart_of_ne fun c hc => (ends c hc).1,
    exponentPart_of_ne fun c hc => (ends c hc).2, List.isEmpty_nil, Option.isNone_none, Bool.and_self,
    ite_true, gt_iff_lt]

/-- No word begins as a number does. -/
theorem readWord_signed (digit : ∀ d, ds.head? = some d → isDigit d = true) (ne : ds ≠ []) (rest : List Char) :
    readWord (signed negative ds ++ rest) = none := by
  cases ds with
  | nil => exact absurd rfl ne
  | cons d ds =>
    have digit := digit d rfl
    unfold readWord signed
    cases negative with
    | true =>
      split
      case h_7 => rfl
      case h_6 heq =>
        obtain ⟨rfl, _⟩ := List.cons.inj (List.cons.inj heq).2
        cases digit
      all_goals
        rename_i heq
        cases (List.cons.inj heq).1
    | false =>
      split
      case h_7 => rfl
      all_goals
        rename_i heq
        obtain ⟨rfl, _⟩ := List.cons.inj heq
        cases digit

theorem IsNumeral.head (n : IsNumeral ds) : ∀ d, ds.head? = some d → isDigit d = true :=
  fun d hd => n.digits d (List.mem_of_mem_head? hd)

/-- The integer that digits write to the last, if there are not too many of them. -/
theorem IsNumeral.readScalar (n : IsNumeral ds) (h : Halts rest) :
    readScalar (signed negative ds ++ rest) = if maxIntegerDigits < ds.length then .error (.tooManyDigits ds.length)
      else .ok (.int (if negative then -(digitsValue ds : Int) else digitsValue ds), rest) := by
  unfold Json.readScalar
  simp only [readWord_signed n.head n.ne_nil rest,
    readNumber_signed n.head n.ne_nil (n.wholePart h) fun c hc => (h c hc).2]

/-- Digits that are read as a whole text are read to the last. -/
theorem isNumeral_of_readScalar (ne : ds ≠ []) (digits : ∀ d ∈ ds, isDigit d = true)
    (h : readScalar (signed negative ds) = .ok (v, rest)) (ends : skipBlanks rest = []) : IsNumeral ds := by
  refine ⟨ne, digits, ?_⟩
  cases ds with
  | nil => exact absurd rfl ne
  | cons c ds =>
    by_cases zero : c = '0'
    · subst zero
      cases ds with
      | nil => exact .inl rfl
      | cons d ds =>
        -- The number is over behind the zero, and the digit that follows is no blank.
        have digit := digits d (by simp)
        have head : ∀ c, ('0' :: d :: ds).head? = some c → isDigit c = true :=
          fun c hc => digits c (List.mem_of_mem_head? hc)
        have whole : wholePart ('0' :: d :: ds ++ []) = some (['0'], d :: ds) := by
          rw [List.append_nil]
          rfl
        have read : readNumber (signed negative ('0' :: d :: ds) ++ []) = _ :=
            readNumber_signed head ne whole fun c hc => by
          cases hc
          refine ⟨?_, ?_, ?_⟩ <;> rintro rfl <;> cases digit
        have none : readWord (signed negative ('0' :: d :: ds) ++ []) = none := readWord_signed head ne []
        rw [List.append_nil] at read none
        unfold Json.readScalar at h
        rw [none, read] at h
        cases h
        rw [skipBlanks_cons (isBlank_of_isDigit digit)] at ends
        cases ends
    · exact .inr fun e => zero (Option.some.inj e)

end Digits

end LspClient.Json
