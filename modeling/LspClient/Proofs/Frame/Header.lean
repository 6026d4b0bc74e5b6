/-
The header of a frame. Its line has no separator inside, so a reader that has all of it finds its
end, and one that has a part of it waits; and the length that it gives is read back.
-/
import LspClient.Frame.Reader
import LspClient.Proofs.Text.Ascii
import LspClient.Proofs.Text.Integer

namespace LspClient.Frame

/-- The line that gives a length, without its separator. -/
def headerLine (n : Nat) : Octets :=
  Text.encode ("Content-Length: " ++ toString n)

theorem wrap_eq (body : Octets) : wrap body = headerLine body.length ++ separator ++ (separator ++ body) := by
  unfold wrap headerLine
  rw [List.append_assoc]

/-- The name of the header. -/
def headerName : List Char :=
  ['C', 'o', 'n', 't', 'e', 'n', 't', '-', 'L', 'e', 'n', 'g', 't', 'h']

/-- The part of the line before the digits. -/
def headerPrefix : List Char :=
  headerName ++ [':', ' ']

theorem toList_headerText (n : Nat) :
    ("Content-Length: " ++ toString n).toList = headerPrefix ++ Nat.toDigits 10 n := by
  rw [String.toList_append, Nat.toString_eq_repr, Nat.toList_repr]
  rfl

theorem toNat_of_mem_toDigits {n : Nat} {c : Char} (h : c ∈ Nat.toDigits 10 n) : 48 ≤ c.toNat ∧ c.toNat ≤ 57 := by
  have := Text.isDigit_of_mem_toDigits h
  unfold Json.isDigit at this
  simp only [Bool.and_eq_true, decide_eq_true_eq, Char.le_def, UInt32.le_iff_toNat_le] at this
  exact this

/-- The characters of the line are printable ASCII. -/
theorem printable_of_mem_headerText {n : Nat} {c : Char} (h : c ∈ ("Content-Length: " ++ toString n).toList) :
    32 ≤ c.toNat ∧ c.toNat < 0x80 := by
  rw [toList_headerText, List.mem_append] at h
  rcases h with h | h
  · have all : headerPrefix.all (fun d => 32 ≤ d.toNat && d.toNat < 0x80) = true := by decide
    simpa using List.all_eq_true.1 all c h
  · have := toNat_of_mem_toDigits h
    omega

theorem decodeAscii_headerLine (n : Nat) :
    Text.decodeAscii (headerLine n) = headerPrefix ++ Nat.toDigits 10 n := by
  unfold headerLine
  rw [Text.decodeAscii_encode fun c hc => (printable_of_mem_headerText hc).2, toList_headerText]

/-- No octet of the line begins a separator. -/
theorem ne_of_mem_headerLine {n : Nat} {b : UInt8} (h : b ∈ headerLine n) : b ≠ 0x0d := by
  rintro rfl
  obtain ⟨c, hc, he⟩ := Text.exists_of_mem_encode (fun c hc => (printable_of_mem_headerText hc).2) h
  have := printable_of_mem_headerText hc
  have : (0x0d : UInt8).toNat = 13 := rfl
  omega

theorem headerLine_ne_nil (n : Nat) : headerLine n ≠ [] := by
  intro h
  have := decodeAscii_headerLine n
  rw [h] at this
  cases this

/-! ## Reading the length -/

/-- The length that the line gives is read back, unless it has too many digits. -/
theorem headerLength?_headerLine {n : Nat} (h : (toString n).length ≤ Json.maxIntegerDigits) :
    headerLength? (headerLine n ++ separator) = .ok (some n) := by
  have digits : (Nat.toDigits 10 n).length ≤ Json.maxIntegerDigits := by
    rwa [Nat.toString_eq_repr, ← String.length_toList, Nat.toList_repr] at h
  have chars : Text.decodeAscii (headerLine n ++ separator) =
      headerName ++ (':' :: ([' '] ++ Nat.toDigits 10 n ++ ['\r', '\n'])) := by
    rw [Text.decodeAscii_append, decodeAscii_headerLine]
    unfold headerPrefix
    simp only [List.append_assoc, List.cons_append, List.nil_append]
    rfl
  have name : (headerName ++ (':' :: ([' '] ++ Nat.toDigits 10 n ++ ['\r', '\n']))).takeWhile (· != ':')
      = headerName := by
    rw [List.takeWhile_append_of_pos (List.all_eq_true.1 (by decide : headerName.all (· != ':') = true))]
    simp
  have lower : String.ofList ((Text.trimBoth Text.isBlank headerName).map Char.toLower) = lengthHeader := by
    decide
  have value : Text.strip (String.ofList ([' '] ++ Nat.toDigits 10 n ++ ['\r', '\n'])) =
      String.ofList (Nat.toDigits 10 n) := by
    unfold Text.strip
    have before : [' '].all Text.isBlank = true := by decide
    have after : ['\r', '\n'].all Text.isBlank = true := by decide
    rw [String.toList_ofList, Text.trimBoth_between (List.all_eq_true.1 before)
      (fun c hc => Text.isBlank_of_isDigit (Text.isDigit_of_mem_toDigits hc)) (List.all_eq_true.1 after)]
  unfold headerLength?
  rw [chars]
  simp only [name, List.drop_left]
  rw [if_pos lower, value, Text.integer?_toDigits digits]
  simp

/-! ## Looking for the separator -/

/-- A separator is found behind octets that do not begin one. -/
theorem offsetOf?_separator : ∀ {line : Octets}, (∀ b ∈ line, b ≠ 0x0d) → ∀ rest,
    Stream.offsetOf? separator (line ++ separator ++ rest) = some line.length
  | [], _, rest => by simp [separator, Stream.offsetOf?, List.isPrefixOf]
  | b :: line, h, rest => by
    have ih := offsetOf?_separator (fun c hc => h c (List.mem_cons_of_mem b hc)) rest
    have hb : separator.isPrefixOf (b :: (line ++ separator ++ rest)) = false := by
      have := h b List.mem_cons_self
      simp [separator, List.isPrefixOf, Ne.symm this]
    rw [List.cons_append, List.cons_append, Stream.offsetOf?, if_neg (by rw [hb]; exact Bool.false_ne_true), ih]
    rfl

/-- No separator is found in such octets, not even with the first half of one behind them. -/
theorem offsetOf?_none : ∀ {line : Octets}, (∀ b ∈ line, b ≠ 0x0d) → ∀ {half : Octets}, half = [] ∨ half = [0x0d] →
    Stream.offsetOf? separator (line ++ half) = none
  | [], _, half, hh => by
    rcases hh with rfl | rfl <;> decide
  | b :: line, h, half, hh => by
    have ih := offsetOf?_none (fun c hc => h c (List.mem_cons_of_mem b hc)) hh
    have hb : separator.isPrefixOf (b :: (line ++ half)) = false := by
      have := h b List.mem_cons_self
      simp [separator, List.isPrefixOf, Ne.symm this]
    rw [List.cons_append, Stream.offsetOf?, if_neg (by rw [hb]; exact Bool.false_ne_true), ih]
    rfl

end LspClient.Frame
