/-
Strings are read back from their JSON text, whatever characters they hold: each character from its
escape, a character beyond the first plane from the two escapes of its surrogates.
-/
import LspClient.Json.Printer
import LspClient.Proofs.Text.Ascii

namespace LspClient.Json

open Text (hex charOf charOf_toNat)

/-! ## Hexadecimal digits -/

theorem hexDigit?_digitChar : ∀ k < 16, hexDigit? (Nat.digitChar k) = some k := by
  decide

/-- The four digits of a unit of two octets. -/
theorem hex_four {n : Nat} (h : n < 0x10000) : hex 4 n =
    [Nat.digitChar (n / 4096), Nat.digitChar (n / 256 % 16), Nat.digitChar (n / 16 % 16), Nat.digitChar (n % 16)] := by
  have zero : ∀ {k}, k = 0 → Nat.digitChar k = '0' := by
    rintro k rfl
    rfl
  unfold hex
  by_cases h1 : n < 16
  · rw [Nat.toDigits_of_lt_base h1, zero (by omega : n / 4096 = 0), zero (by omega : n / 256 % 16 = 0),
      zero (by omega : n / 16 % 16 = 0), Nat.mod_eq_of_lt h1]
    rfl
  · rw [Nat.toDigits_of_base_le (by decide) (by omega)]
    by_cases h2 : n / 16 < 16
    · rw [Nat.toDigits_of_lt_base h2, zero (by omega : n / 4096 = 0), zero (by omega : n / 256 % 16 = 0),
        Nat.mod_eq_of_lt h2]
      rfl
    · rw [Nat.toDigits_of_base_le (by decide) (by omega)]
      have e2 : n / 16 / 16 = n / 256 := by omega
      by_cases h3 : n / 256 < 16
      · rw [e2, Nat.toDigits_of_lt_base h3, zero (by omega : n / 4096 = 0), Nat.mod_eq_of_lt h3]
        rfl
      · have e3 : n / 256 / 16 = n / 4096 := by omega
        rw [e2, Nat.toDigits_of_base_le (by decide) (by omega), e3, Nat.toDigits_of_lt_base (by omega)]
        rfl

theorem hexNumber?_hex {n : Nat} (h : n < 0x10000) : hexNumber? (hex 4 n) = some n := by
  rw [hex_four h]
  simp only [hexNumber?, hexDigit?_digitChar _ (by omega : n / 4096 < 16),
    hexDigit?_digitChar _ (by omega : n / 256 % 16 < 16), hexDigit?_digitChar _ (by omega : n / 16 % 16 < 16),
    hexDigit?_digitChar _ (by omega : n % 16 < 16)]
  show some _ = some n
  congr 1
  omega

theorem length_hex {n : Nat} (h : n < 0x10000) : (hex 4 n).length = 4 := by
  rw [hex_four h]
  rfl

/-! ## Single escapes -/

/-- The escape of one unit, which is no high surrogate. -/
theorem unicodeEscape_unit {n : Nat} {rest : List Char} (h : n < 0x10000) (low : n < 0xd800 ∨ 0xdc00 ≤ n)
    (more : rest ≠ []) : unicodeEscape (hex 4 n ++ rest) = .ok (charOf n, 4) := by
  have take : (hex 4 n ++ rest).take 4 = hex 4 n := List.take_left' (length_hex h)
  have drop : (hex 4 n ++ rest).drop 4 = rest := List.drop_left' (length_hex h)
  have some : rest.isEmpty = false := by simpa using more
  have none : (decide (0xd800 ≤ n) && decide (n < 0xdc00)) = false := by
    simp
    omega
  unfold unicodeEscape
  simp only [take, drop, hexNumber?_hex h, some, none, Bool.false_eq_true, ite_false]

/-- The escapes of two surrogates. -/
theorem unicodeEscape_pair {n : Nat} {rest : List Char} (h : n < 0x100000) (more : rest ≠ []) :
    unicodeEscape (hex 4 (0xd800 + n / 1024) ++ '\\' :: 'u' :: (hex 4 (0xdc00 + n % 1024) ++ rest)) =
      .ok (charOf (0x10000 + n), 10) := by
  generalize hh : 0xd800 + n / 1024 = high
  generalize hl : 0xdc00 + n % 1024 = low
  have len : (hex 4 high).length = 4 := length_hex (by omega)
  have len' : (hex 4 low).length = 4 := length_hex (by omega)
  have take : ∀ xs, (hex 4 high ++ xs).take 4 = hex 4 high := fun xs => List.take_left' len
  have drop : ∀ xs, (hex 4 high ++ xs).drop 4 = xs := fun xs => List.drop_left' len
  have take' : (hex 4 low ++ rest).take 4 = hex 4 low := List.take_left' len'
  have drop' : (hex 4 low ++ rest).drop 4 = rest := List.drop_left' len'
  have some : rest.isEmpty = false := by simpa using more
  have isHigh : (decide (0xd800 ≤ high) && decide (high < 0xdc00)) = true := by
    simp
    omega
  have isLow : (decide (0xdc00 ≤ low) && decide (low < 0xe000)) = true := by
    simp
    omega
  have sum : 0x10000 + (high - 0xd800) * 1024 + (low - 0xdc00) = 0x10000 + n := by omega
  unfold unicodeEscape
  simp only [take, drop, hexNumber?_hex (by omega : high < 0x10000), isHigh, take', drop',
    hexNumber?_hex (by omega : low < 0x10000), isLow, some, sum, List.isEmpty_cons, Bool.false_eq_true,
    ite_false, ite_true]

/-! ## Strings -/

section Strings

variable {opening : Nat} {done tail : List Char}

/-- Characters that belong to an escape are passed over. -/
theorem readString_skip (xs : List Char) :
    readString opening xs.length done (xs ++ tail) = readString opening 0 done tail := by
  induction xs with
  | nil => rfl
  | cons x xs ih => exact ih

/-- A letter behind a backslash. -/
theorem readString_simple {e u : Char} (hu : e ≠ 'u') (h : simpleEscape? e = some u) :
    readString opening 0 done ('\\' :: e :: tail) = readString opening 0 (u :: done) tail := by
  rw [readString]
  simp [hu, h]
  exact readString_skip [e]

/-- A `u` behind a backslash, and the digits that belong to it. -/
theorem readString_unicode {u : Char} {xs : List Char} {n : Nat} (h : unicodeEscape (xs ++ tail) = .ok (u, n))
    (len : xs.length = n) :
    readString opening 0 done ('\\' :: 'u' :: (xs ++ tail)) = readString opening 0 (u :: done) tail := by
  subst len
  rw [readString]
  simp [h]
  exact readString_skip ('u' :: xs)

/-- A character that stands for itself. -/
theorem readString_plain {c : Char} (quote : c ≠ '"') (backslash : c ≠ '\\') (h : 0x20 ≤ c.toNat) :
    readString opening 0 done (c :: tail) = readString opening 0 (c :: done) tail := by
  rw [readString.eq_def]
  simp [quote, backslash, Nat.not_lt.2 h]

/-- One character is read back from its escape. -/
theorem readString_escapeChar (c : Char) (more : tail ≠ []) :
    readString opening 0 done (escapeChar c ++ tail) = readString opening 0 (c :: done) tail := by
  have same : ∀ {d : Char}, c.toNat = d.toNat → c = d := fun h => Char.toNat_inj.1 h
  have valid : c.toNat < 0xd800 ∨ 0xdfff < c.toNat ∧ c.toNat < 0x110000 := c.valid
  unfold escapeChar
  split
  case isTrue h => subst h; exact readString_simple (by decide) (by decide)
  split
  case isTrue h => subst h; exact readString_simple (by decide) (by decide)
  split
  case isTrue h => subst h; exact readString_simple (by decide) (by decide)
  split
  case isTrue h => subst h; exact readString_simple (by decide) (by decide)
  split
  case isTrue h => subst h; exact readString_simple (by decide) (by decide)
  split
  case isTrue h =>
    obtain rfl : c = '\x08' := same h
    exact readString_simple (by decide) (by decide)
  split
  case isTrue h =>
    obtain rfl : c = '\x0c' := same h
    exact readString_simple (by decide) (by decide)
  split
  case isTrue quote backslash _ _ _ _ _ h =>
    rw [Bool.and_eq_true, decide_eq_true_eq, decide_eq_true_eq] at h
    exact readString_plain quote backslash h.1
  split
  case isTrue h =>
    have unit := unicodeEscape_unit h (by omega) more
    rw [charOf_toNat] at unit
    exact readString_unicode unit (length_hex h)
  case isFalse h =>
    obtain ⟨n, hn⟩ : ∃ n, c.toNat = 0x10000 + n := Nat.exists_eq_add_of_le (by omega)
    have sub : c.toNat - 0x10000 = n := by omega
    have pair := unicodeEscape_pair (n := n) (by omega) more
    rw [← hn, charOf_toNat] at pair
    have join : hex 4 (0xd800 + n / 1024) ++ '\\' :: 'u' :: (hex 4 (0xdc00 + n % 1024) ++ tail) =
        hex 4 (0xd800 + n / 1024) ++ '\\' :: 'u' :: hex 4 (0xdc00 + n % 1024) ++ tail := by simp
    rw [join] at pair
    rw [sub]
    simp only [escapeUnit, List.cons_append]
    refine readString_unicode pair ?_
    rw [List.length_append, List.length_cons, List.length_cons, length_hex (by omega), length_hex (by omega)]

/-- A string is read back from its text, up to the closing quote. -/
theorem readString_escaped (cs : List Char) (done rest : List Char) :
    readString opening 0 done (cs.flatMap escapeChar ++ '"' :: rest) =
    .ok (String.ofList (done.reverse ++ cs), rest) := by
  induction cs generalizing done with
  | nil => simp [readString]
  | cons c cs ih =>
    rw [List.flatMap_cons, List.append_assoc, readString_escapeChar c (by simp), ih]
    simp

/-- No escape is empty, for the empty string is read from nothing. -/
theorem escapeChar_ne_nil (c : Char) : escapeChar c ≠ [] := by
  intro none
  have read : readString 0 0 [] ([c].flatMap escapeChar ++ ['"']) = _ := readString_escaped [c] [] []
  rw [List.flatMap_singleton, none] at read
  simp [readString] at read

end Strings

/-! ## Printable text -/

/-- The characters that JSON text is made of. -/
def IsPrintable (c : Char) : Prop :=
  0x20 ≤ c.toNat ∧ c.toNat < 0x80

instance (c : Char) : Decidable (IsPrintable c) :=
  inferInstanceAs (Decidable (_ ∧ _))

theorem isPrintable_of_all {cs : List Char} (h : cs.all (fun c => decide (IsPrintable c)) = true) :
    ∀ d ∈ cs, IsPrintable d :=
  fun d hd => of_decide_eq_true (List.all_eq_true.1 h d hd)

theorem isPrintable_digitChar : ∀ k < 16, IsPrintable (Nat.digitChar k) := by
  decide

theorem isPrintable_of_mem_escapeUnit {n : Nat} (h : n < 0x10000) : ∀ d ∈ escapeUnit n, IsPrintable d := by
  unfold escapeUnit
  rw [hex_four h]
  simp only [List.forall_mem_cons, List.not_mem_nil, false_implies, implies_true, and_true]
  exact ⟨by decide, by decide, isPrintable_digitChar _ (by omega), isPrintable_digitChar _ (by omega),
    isPrintable_digitChar _ (by omega), isPrintable_digitChar _ (by omega)⟩

theorem isPrintable_of_mem_escapeChar {c : Char} : ∀ d ∈ escapeChar c, IsPrintable d := by
  have valid : c.toNat < 0xd800 ∨ 0xdfff < c.toNat ∧ c.toNat < 0x110000 := c.valid
  unfold escapeChar
  split
  case isTrue => exact isPrintable_of_all rfl
  split
  case isTrue => exact isPrintable_of_all rfl
  split
  case isTrue => exact isPrintable_of_all rfl
  split
  case isTrue => exact isPrintable_of_all rfl
  split
  case isTrue => exact isPrintable_of_all rfl
  split
  case isTrue => exact isPrintable_of_all rfl
  split
  case isTrue => exact isPrintable_of_all rfl
  split
  case isTrue plain =>
    rw [Bool.and_eq_true, decide_eq_true_eq, decide_eq_true_eq] at plain
    intro d hd
    cases List.mem_singleton.1 hd
    exact ⟨plain.1, by omega⟩
  split
  case isTrue unit => exact isPrintable_of_mem_escapeUnit unit
  case isFalse =>
    intro d hd
    rcases List.mem_append.1 hd with hd | hd
    · exact isPrintable_of_mem_escapeUnit (by omega) d hd
    · exact isPrintable_of_mem_escapeUnit (by omega) d hd

/-- The text of a string is printable. -/
theorem isPrintable_of_mem_renderString {s : String} : ∀ d ∈ renderString s, IsPrintable d := by
  intro d h
  rcases List.mem_cons.1 h with rfl | h
  · decide
  · rcases List.mem_append.1 h with h | h
    · obtain ⟨c, _, hd⟩ := List.mem_flatMap.1 h
      exact isPrintable_of_mem_escapeChar d hd
    · cases List.mem_singleton.1 h
      decide

end LspClient.Json
