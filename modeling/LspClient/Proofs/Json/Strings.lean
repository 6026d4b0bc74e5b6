/-
The strings that are read. The reader looks past an escape for the other half of a surrogate pair, but not
past the closing quote: what is read as a string is a string by itself (`StringText`), and is read whatever
follows it.
-/
import LspClient.Proofs.Json.Escape

namespace LspClient.Json

open Text (charOf)

/-- A string behind its opening quote, up to and with the closing one, and the characters that it stands for. -/
inductive StringText : List Char → List Char → Prop
  | quote : StringText ['"'] []
  | plain {c : Char} {ks us : List Char} (quote : c ≠ '"') (backslash : c ≠ '\\') (control : 0x20 ≤ c.toNat)
    (rest : StringText ks us) : StringText (c :: ks) (c :: us)
  | simple {e u : Char} {ks us : List Char} (letter : e ≠ 'u') (stands : simpleEscape? e = some u)
    (rest : StringText ks us) : StringText ('\\' :: e :: ks) (u :: us)
  | unicode {u : Char} {xs ks us : List Char} (escape : unicodeEscape (xs ++ ks) = .ok (u, xs.length))
    (rest : StringText ks us) : StringText ('\\' :: 'u' :: (xs ++ ks)) (u :: us)

/-! ## Escapes by number -/

section Escapes

variable {high n : Nat} {u : Char} {digits rest more ks us xs : List Char}

/-- What a high surrogate stands for, together with the low one if that follows. -/
def pairing? (high : Nat) : List Char → Option (Char × Nat)
  | '\\' :: 'u' :: tail =>
    if (tail.drop 4).isEmpty then some (charOf high, 4)
    else (hexNumber? (tail.take 4)).map fun low =>
      if 0xdc00 ≤ low && low < 0xe000 then (charOf (0x10000 + (high - 0xd800) * 1024 + (low - 0xdc00)), 10)
      else (charOf high, 4)
  | _ => some (charOf high, 4)

/-- What four digits stand for, with what follows them. -/
def numbered? (digits rest : List Char) : Option (Char × Nat) :=
  (hexNumber? digits).bind fun high =>
    if 0xd800 ≤ high && high < 0xdc00 then pairing? high rest else some (charOf high, 4)

theorem unicodeEscape_eq_ok_iff (four : digits.length = 4) (nonempty : rest ≠ []) :
    unicodeEscape (digits ++ rest) = .ok (u, n) ↔ numbered? digits rest = some (u, n) := by
  have take : (digits ++ rest).take 4 = digits := List.take_left' four
  have drop : (digits ++ rest).drop 4 = rest := List.drop_left' four
  have more : rest.isEmpty = false := by simpa using nonempty
  unfold unicodeEscape numbered?
  simp only [take, drop, more, Bool.false_eq_true, if_false]
  cases hexNumber? digits with
  | none => simp
  | some high =>
    simp only [Option.bind_some]
    split
    case isFalse => simp
    case isTrue =>
      split
      case h_1 tail =>
        rw [pairing?]
        cases (tail.drop 4).isEmpty with
        | true => simp
        | false =>
          cases hexNumber? (tail.take 4) with
          | none => simp
          | some low =>
            simp only [Bool.false_eq_true, if_false, Option.map_some]
            split <;> simp
      case h_2 other =>
        rw [pairing?]
        · simp
        · exact other

/-- Four digits are at the front, or the end of the text is. -/
theorem exists_of_unicodeEscape (h : unicodeEscape xs = .ok (u, n)) :
    ∃ digits rest, xs = digits ++ rest ∧ digits.length = 4 ∧ rest ≠ [] ∧ numbered? digits rest = some (u, n) := by
  have more : xs.drop 4 ≠ [] := by
    intro none
    unfold unicodeEscape at h
    simp [none] at h
  have four : (xs.take 4).length = 4 := by
    rw [Ne, List.drop_eq_nil_iff] at more
    rw [List.length_take]
    omega
  rw [← List.take_append_drop 4 xs, unicodeEscape_eq_ok_iff four more] at h
  exact ⟨xs.take 4, xs.drop 4, (List.take_append_drop 4 xs).symm, four, more, h⟩

/-- The other half of a pair is looked for among the next characters. -/
theorem pairing?_cases (h : pairing? high rest = some (u, n)) : n = 4 ∨
    n = 10 ∧ ∃ tail low, rest = '\\' :: 'u' :: tail ∧ 4 < tail.length ∧ hexNumber? (tail.take 4) = some low := by
  unfold pairing? at h
  split at h
  case h_1 tail =>
    split at h
    case isTrue =>
      rw [Option.some.injEq, Prod.mk.injEq] at h
      exact .inl h.2.symm
    case isFalse more =>
      rw [List.isEmpty_iff, List.drop_eq_nil_iff, Nat.not_le] at more
      obtain ⟨low, hlow, pair⟩ := Option.map_eq_some_iff.1 h
      split at pair
      case isTrue => exact .inr ⟨(congrArg Prod.snd pair).symm, tail, low, rfl, more, hlow⟩
      case isFalse => exact .inl (congrArg Prod.snd pair).symm
  case h_2 =>
    rw [Option.some.injEq, Prod.mk.injEq] at h
    exact .inl h.2.symm

theorem pairing?_of_ne (other : ∀ tail, rest ≠ '\\' :: 'u' :: tail) : pairing? high rest = some (charOf high, 4) := by
  rw [pairing?]
  exact other

/-- Behind the other half of a pair nothing is looked at. -/
theorem pairing?_pair {ys rest' : List Char} (six : ys.length = 6) (nonempty : rest ≠ []) (nonempty' : rest' ≠ []) :
    pairing? high (ys ++ rest) = pairing? high (ys ++ rest') := by
  obtain ⟨a, b, tail, rfl⟩ : ∃ a b tail, ys = a :: b :: tail :=
    match ys, six with
    | a :: b :: tail, _ => ⟨a, b, tail, rfl⟩
  have four : tail.length = 4 := by simpa using six
  by_cases pair : a = '\\' ∧ b = 'u'
  · obtain ⟨rfl, rfl⟩ := pair
    simp only [List.cons_append, pairing?, List.drop_left' four, List.take_left' four,
      List.isEmpty_eq_false_iff.2 nonempty, List.isEmpty_eq_false_iff.2 nonempty']
  · have other : ∀ more tail', a :: b :: (tail ++ more) ≠ '\\' :: 'u' :: tail' := by
      rintro more tail' e
      simp only [List.cons.injEq] at e
      exact pair ⟨e.1, e.2.1⟩
    simp only [List.cons_append, pairing?_of_ne (other _)]

/-- An escape takes four characters behind its letter, or ten, and the text goes on behind them. -/
theorem length_of_unicodeEscape (h : unicodeEscape xs = .ok (u, n)) : (n = 4 ∨ n = 10) ∧ n < xs.length := by
  obtain ⟨digits, rest, rfl, four, nonempty, found⟩ := exists_of_unicodeEscape h
  have more := List.length_pos_iff.2 nonempty
  obtain ⟨high, _, found⟩ := Option.bind_eq_some_iff.1 found
  rw [List.length_append]
  split at found
  case isTrue =>
    rcases pairing?_cases found with rfl | ⟨rfl, tail, _, rfl, long, _⟩
    · exact ⟨.inl rfl, by omega⟩
    · rw [List.length_cons, List.length_cons]
      exact ⟨.inr rfl, by omega⟩
  case isFalse =>
    obtain rfl : 4 = n := congrArg Prod.snd (Option.some.inj found)
    exact ⟨.inl rfl, by omega⟩

end Escapes

/-! ## Strings -/

section Strings

variable {high opening : Nat} {u : Char} {ks us xs more rest done : List Char}

theorem StringText.ne_nil (h : StringText ks us) : ks ≠ [] := by
  cases h <;> simp

/-- A string that begins with an escape by number goes on behind its digits. -/
theorem StringText.of_unicode {tail : List Char} (h : StringText ks us) (begins : ks ++ more = '\\' :: 'u' :: tail) :
    ∃ t, ks = '\\' :: 'u' :: t ∧ 4 < t.length := by
  cases h with
  | quote => simp at begins
  | plain _ backslash => exact absurd (List.cons.inj begins).1 backslash
  | simple letter => exact absurd (List.cons.inj (List.cons.inj begins).2).1 letter
  | unicode escape =>
    obtain ⟨digits, rest, e, four, nonempty, _⟩ := exists_of_unicodeEscape escape
    have := List.length_pos_iff.2 nonempty
    refine ⟨_, rfl, ?_⟩
    rw [e, List.length_append]
    omega

theorem StringText.pairing?_append (h : StringText ks us) (more : List Char) :
    pairing? high (ks ++ more) = pairing? high ks := by
  by_cases begins : ∃ tail, ks ++ more = '\\' :: 'u' :: tail
  · obtain ⟨_, begins⟩ := begins
    obtain ⟨t, rfl, long⟩ := h.of_unicode begins
    have goesOn : ∀ xs : List Char, 4 < xs.length → (xs.drop 4).isEmpty = false := fun xs long =>
      List.isEmpty_eq_false_iff.2 fun none => absurd (List.drop_eq_nil_iff.1 none) (Nat.not_le.2 long)
    have longer : 4 < (t ++ more).length := by
      rw [List.length_append]
      omega
    simp only [List.cons_append, pairing?, goesOn t long, goesOn _ longer,
      List.take_append_of_le_length (Nat.le_of_lt long)]
  · have other : ∀ tail, ks ≠ '\\' :: 'u' :: tail := by
      rintro tail rfl
      exact begins ⟨tail ++ more, rfl⟩
    rw [pairing?_of_ne fun tail e => begins ⟨tail, e⟩, pairing?_of_ne other]

/-- An escape is read with what is left of the string as with what follows the string. -/
theorem StringText.unicodeEscape_append (h : StringText ks us) (more : List Char) :
    unicodeEscape (xs ++ (ks ++ more)) = .ok (u, xs.length) ↔ unicodeEscape (xs ++ ks) = .ok (u, xs.length) := by
  have nonempty' : ks ++ more ≠ [] := fun none => h.ne_nil (List.append_eq_nil_iff.1 none).1
  by_cases four : xs.length = 4
  · have same : numbered? xs (ks ++ more) = numbered? xs ks := by
      unfold numbered?
      simp only [h.pairing?_append more]
    rw [unicodeEscape_eq_ok_iff four nonempty', unicodeEscape_eq_ok_iff four h.ne_nil, same]
  by_cases ten : xs.length = 10
  · obtain ⟨digits, ys, rfl, hdigits⟩ : ∃ digits ys, xs = digits ++ ys ∧ digits.length = 4 :=
      ⟨xs.take 4, xs.drop 4, (List.take_append_drop 4 xs).symm, by rw [List.length_take]; omega⟩
    have six : ys.length = 6 := by
      rw [List.length_append] at ten
      omega
    have same : numbered? digits (ys ++ (ks ++ more)) = numbered? digits (ys ++ ks) := by
      unfold numbered?
      simp only [pairing?_pair six nonempty' h.ne_nil]
    have left : ∀ {r : List Char}, r ≠ [] → ys ++ r ≠ [] :=
      fun nonempty none => nonempty (List.append_eq_nil_iff.1 none).2
    rw [List.append_assoc, List.append_assoc, unicodeEscape_eq_ok_iff hdigits (left nonempty'),
      unicodeEscape_eq_ok_iff hdigits (left h.ne_nil), same]
  · have neither : ∀ r, unicodeEscape (xs ++ r) ≠ .ok (u, xs.length) := fun r e => by
      rcases (length_of_unicodeEscape e).1 with h | h
      · exact four h
      · exact ten h
    exact ⟨fun e => absurd e (neither _), fun e => absurd e (neither _)⟩

/-- A string is read whatever follows it. -/
theorem StringText.readString (h : StringText ks us) (opening : Nat) (done more : List Char) :
    readString opening 0 done (ks ++ more) = .ok (String.ofList (done.reverse ++ us), more) := by
  induction h generalizing done with
  | quote => simp [Json.readString]
  | plain quote backslash control _ ih =>
    rw [List.cons_append, readString_plain quote backslash control, ih]
    simp
  | simple letter stands _ ih =>
    rw [List.cons_append, List.cons_append, readString_simple letter stands, ih]
    simp
  | unicode escape rest ih =>
    rw [List.cons_append, List.cons_append, List.append_assoc,
      readString_unicode ((rest.unicodeEscape_append more).2 escape) rfl, ih]
    simp

/-- What is read as a string is one. -/
theorem stringText_of_readString {s : String} {cs : List Char} (h : readString opening 0 done cs = .ok (s, rest)) :
    ∃ ks us, cs = ks ++ rest ∧ StringText ks us ∧ s = String.ofList (done.reverse ++ us) := by
  induction hn : cs.length using Nat.strongRecOn generalizing cs done with
  | ind n ih =>
  cases cs with
  | nil => cases h
  | cons c cs =>
  rw [List.length_cons] at hn
  rw [Json.readString.eq_def] at h
  dsimp only at h
  split at h
  case isTrue quote =>
    cases h
    exact ⟨['"'], [], by rw [quote]; rfl, .quote, by simp⟩
  case isFalse quote =>
  split at h
  case isTrue backslash =>
    subst backslash
    cases cs with
    | nil => cases h
    | cons e tail =>
    rw [List.length_cons] at hn
    dsimp only at h
    split at h
    case isTrue unicode =>
      subst unicode
      cases escape : unicodeEscape tail with
      | error f =>
        rw [escape] at h
        cases h
      | ok found =>
        obtain ⟨u, k⟩ := found
        rw [escape] at h
        obtain ⟨_, long⟩ := length_of_unicodeEscape escape
        obtain ⟨xs, tail, rfl, rfl⟩ : ∃ xs more, tail = xs ++ more ∧ k = xs.length :=
          ⟨tail.take k, tail.drop k, (List.take_append_drop k tail).symm, by rw [List.length_take]; omega⟩
        rw [List.length_append] at hn
        have h : readString opening ('u' :: xs).length (u :: done) (('u' :: xs) ++ tail) = .ok (s, rest) := h
        rw [readString_skip] at h
        obtain ⟨ks, us, rfl, text, rfl⟩ := ih tail.length (by omega) h rfl
        refine ⟨'\\' :: 'u' :: (xs ++ ks),
          u :: us, by simp, .unicode ((text.unicodeEscape_append rest).1 escape) text, by simp⟩
    case isFalse letter =>
      cases stands : simpleEscape? e with
      | none =>
        rw [stands] at h
        cases h
      | some u =>
        rw [stands] at h
        have h : readString opening [e].length (u :: done) ([e] ++ tail) = .ok (s, rest) := h
        rw [readString_skip] at h
        obtain ⟨ks, us, rfl, text, rfl⟩ := ih tail.length (by omega) h rfl
        exact ⟨'\\' :: e :: ks, u :: us, rfl, .simple letter stands text, by simp⟩
  case isFalse backslash =>
  split at h
  case isTrue => cases h
  case isFalse control =>
    obtain ⟨ks, us, rfl, text, rfl⟩ := ih cs.length (by omega) h rfl
    exact ⟨c :: ks, c :: us, rfl, .plain quote backslash (Nat.not_lt.1 control) text, by simp⟩

/-! ### Closing quotes -/

/-- Text up to and with the first quote that no backslash covers. -/
inductive ClosesText : List Char → Prop
  | quote : ClosesText ['"']
  | plain {c : Char} {ks : List Char} (quote : c ≠ '"') (backslash : c ≠ '\\') (rest : ClosesText ks) :
    ClosesText (c :: ks)
  | escape {c : Char} {ks : List Char} (rest : ClosesText ks) : ClosesText ('\\' :: c :: ks)

/-- There is one such quote. -/
theorem ClosesText.unique {ls : List Char} (hk : ClosesText ks) (hl : ClosesText ls) (same : ks ++ more = ls ++ rest) :
    ks = ls ∧ more = rest := by
  induction hk generalizing ls with
  | quote =>
    cases hl with
    | quote => exact ⟨rfl, (List.cons.inj same).2⟩
    | plain quote => exact absurd (List.cons.inj same).1.symm quote
    | escape => cases (List.cons.inj same).1
  | plain quote backslash _ ih =>
    cases hl with
    | quote => exact absurd (List.cons.inj same).1 quote
    | plain _ _ hl =>
      obtain ⟨rfl, others⟩ := List.cons.inj same
      obtain ⟨rfl, rfl⟩ := ih hl others
      exact ⟨rfl, rfl⟩
    | escape => exact absurd (List.cons.inj same).1 backslash
  | escape _ ih =>
    cases hl with
    | quote => cases (List.cons.inj same).1
    | plain _ backslash => exact absurd (List.cons.inj same).1.symm backslash
    | escape hl =>
      obtain ⟨rfl, others⟩ := List.cons.inj (List.cons.inj same).2
      obtain ⟨rfl, rfl⟩ := ih hl others
      exact ⟨rfl, rfl⟩

/-- A character of a string that stands for itself there. -/
def IsPlain (c : Char) : Prop :=
  c ≠ '"' ∧ c ≠ '\\' ∧ 0x20 ≤ c.toNat

instance (c : Char) : Decidable (IsPlain c) :=
  inferInstanceAs (Decidable (_ ∧ _ ∧ _))

theorem isPlain_of_all {cs : List Char} (h : cs.all (fun c => decide (IsPlain c)) = true) : ∀ c ∈ cs, IsPlain c :=
  fun c hc => of_decide_eq_true (List.all_eq_true.1 h c hc)

theorem ClosesText.append_plain (h : ClosesText ks) (plain : ∀ x ∈ xs, IsPlain x) : ClosesText (xs ++ ks) := by
  induction xs with
  | nil => exact h
  | cons x xs ih =>
    obtain ⟨⟨quote, backslash, _⟩, plain⟩ := List.forall_mem_cons.1 plain
    exact .plain quote backslash (ih plain)

theorem isPlain_of_hexDigit? {c : Char} {k : Nat} (h : hexDigit? c = some k) : IsPlain c := by
  have digit : 0x30 ≤ c.toNat ∧ c.toNat ≤ 0x39 ∨ 0x61 ≤ c.toNat ∧ c.toNat ≤ 0x66 ∨ 0x41 ≤ c.toNat ∧ c.toNat ≤ 0x46 := by
    have le : ∀ {a b : Char}, a ≤ b → a.toNat ≤ b.toNat := fun h => h
    unfold hexDigit? at h
    split at h
    case isTrue digit =>
      rw [Bool.and_eq_true, decide_eq_true_eq, decide_eq_true_eq] at digit
      exact .inl ⟨le digit.1, le digit.2⟩
    split at h
    case isTrue digit =>
      rw [Bool.and_eq_true, decide_eq_true_eq, decide_eq_true_eq] at digit
      exact .inr (.inl ⟨le digit.1, le digit.2⟩)
    split at h
    case isTrue digit =>
      rw [Bool.and_eq_true, decide_eq_true_eq, decide_eq_true_eq] at digit
      exact .inr (.inr ⟨le digit.1, le digit.2⟩)
    case isFalse => cases h
  refine ⟨?_, ?_, by omega⟩
  · rintro rfl
    revert digit
    decide
  · rintro rfl
    revert digit
    decide

theorem isPlain_of_hexNumber? {n : Nat} (h : hexNumber? xs = some n) : ∀ x ∈ xs, IsPlain x := by
  unfold hexNumber? at h
  split at h
  case h_1 a b c d =>
    simp only [Option.bind_eq_bind, Option.bind_eq_some_iff] at h
    obtain ⟨_, ha, _, hb, _, hc, _, hd, _⟩ := h
    simp only [List.forall_mem_cons, List.not_mem_nil, false_implies, implies_true, and_true]
    exact ⟨isPlain_of_hexDigit? ha, isPlain_of_hexDigit? hb, isPlain_of_hexDigit? hc, isPlain_of_hexDigit? hd⟩
  case h_2 => cases h

/-- No quote is among the characters of an escape by number. -/
theorem ClosesText.append_escape (h : ClosesText ks) (escape : unicodeEscape (xs ++ ks) = .ok (u, xs.length)) :
    ClosesText (xs ++ ks) ∧ ∀ x ∈ xs, 0x20 ≤ x.toNat := by
  obtain ⟨digits, rest, whole, four, _, found⟩ := exists_of_unicodeEscape escape
  obtain ⟨high, hdigits, found⟩ := Option.bind_eq_some_iff.1 found
  have plain := isPlain_of_hexNumber? hdigits
  have single : xs.length = 4 → ClosesText (xs ++ ks) ∧ ∀ x ∈ xs, 0x20 ≤ x.toNat := by
    intro len
    obtain ⟨rfl, rfl⟩ := List.append_inj whole (by rw [len, four])
    exact ⟨h.append_plain plain, fun x hx => (plain x hx).2.2⟩
  split at found
  case isFalse => exact single (congrArg Prod.snd (Option.some.inj found)).symm
  case isTrue =>
    rcases pairing?_cases found with len | ⟨len, tail, low, rfl, long, hlow⟩
    · exact single len
    · have plain' := isPlain_of_hexNumber? hlow
      have pair : '\\' :: 'u' :: tail = '\\' :: 'u' :: tail.take 4 ++ tail.drop 4 := by
        simp only [List.cons_append, List.take_append_drop]
      rw [pair, ← List.append_assoc] at whole
      obtain ⟨rfl, rfl⟩ := List.append_inj whole (by
        rw [len, List.length_append, List.length_cons, List.length_cons, List.length_take, four]
        omega)
      refine ⟨?_, List.forall_mem_append.2 ⟨fun x hx => (plain x hx).2.2, ?_⟩⟩
      · rw [List.append_assoc]
        exact .append_plain (.escape (h.append_plain plain')) plain
      · exact List.forall_mem_cons.2 ⟨by decide, List.forall_mem_cons.2 ⟨by decide, fun x hx => (plain' x hx).2.2⟩⟩

theorem le_of_simpleEscape? {e : Char} (h : simpleEscape? e = some u) : 0x20 ≤ e.toNat := by
  unfold simpleEscape? at h
  split at h
  case isTrue letter =>
    simp only [Bool.or_eq_true, decide_eq_true_eq] at letter
    rcases letter with (rfl | rfl) | rfl <;> decide
  repeat' split at h
  all_goals first | (subst e; decide) | cases h

/-- A string ends at the first quote that no backslash covers, and no control character is in it. -/
theorem StringText.closes (h : StringText ks us) : ClosesText ks ∧ ∀ k ∈ ks, 0x20 ≤ k.toNat := by
  induction h with
  | quote => exact ⟨.quote, List.forall_mem_singleton.2 (by decide)⟩
  | plain quote backslash control _ ih => exact ⟨.plain quote backslash ih.1, List.forall_mem_cons.2 ⟨control, ih.2⟩⟩
  | simple letter stands _ ih =>
    exact ⟨.escape ih.1, List.forall_mem_cons.2 ⟨by decide, List.forall_mem_cons.2 ⟨le_of_simpleEscape? stands, ih.2⟩⟩⟩
  | unicode escape _ ih =>
    obtain ⟨closes, controls⟩ := ih.1.append_escape escape
    exact ⟨.escape closes, List.forall_mem_cons.2 ⟨by decide, List.forall_mem_cons.2 ⟨by decide,
      List.forall_mem_append.2 ⟨controls, ih.2⟩⟩⟩⟩

end Strings

end LspClient.Json
