/-
Octets read as characters. A character is told by its own octets, whatever follows them, and every octet but
those of ASCII belongs to a character beyond ASCII: text can be taken apart in front of an ASCII octet, and
the parts are read as they are in the whole.
-/
import LspClient.Proofs.Text.Ascii

namespace LspClient.Text

/-- The octets of one character. -/
inductive IsChar : Octets → Char → Prop
  | ascii {b : UInt8} {c : Char} (low : b.toNat < 0x80) (same : c.toNat = b.toNat) : IsChar [b] c
  | wide {b : UInt8} {tails : Octets} {c : Char} (lead : 0x80 ≤ b.toNat) (high : 0x80 ≤ c.toNat)
    (continues : ∀ t ∈ tails, 0x80 ≤ t.toNat)
    (scanned : ∀ rest, scanUtf8 true b (tails ++ rest) = .char c (tails.length + 1)) : IsChar (b :: tails) c

/-- Octets that stand for characters. -/
inductive Decodes : Octets → List Char → Prop
  | nil : Decodes [] []
  | cons {u bs : Octets} {c : Char} {cs : List Char} (first : IsChar u c) (rest : Decodes bs cs) :
    Decodes (u ++ bs) (c :: cs)

/-! ## Single characters -/

theorem charOf_valid {n : Nat} (h : n.isValidChar) : (charOf n).toNat = n := by
  unfold charOf
  rw [dif_pos h]
  rfl

/-- No number beyond ASCII is that of an ASCII character. -/
theorem le_toNat_charOf {n : Nat} (h : 0x80 ≤ n) : 0x80 ≤ (charOf n).toNat := by
  by_cases valid : n.isValidChar
  · rwa [charOf_valid valid]
  · unfold charOf
    rw [dif_neg valid]
    decide

theorem le_of_isContinuation {b : UInt8} (h : isContinuation b = true) : 0x80 ≤ b.toNat ∧ b.toNat < 0xc0 := by
  unfold isContinuation at h
  simp only [Bool.and_eq_true, decide_eq_true_eq, UInt8.le_iff_toNat_le, UInt8.lt_iff_toNat_lt] at h
  exact h

/-- Two octets of a character. -/
theorem isChar_two {b x : UInt8} (lead : ¬ b.toNat < 0xc2) (two : b.toNat < 0xe0) (tail : isContinuation x = true) :
    IsChar [b, x] (charOf ((b.toNat - 0xc0) * 64 + (x.toNat - 0x80))) := by
  have ascii : ¬ b.toNat < 0x80 := by omega
  refine .wide (by omega) (le_toNat_charOf (by omega)) ?_ fun rest => ?_
  · exact List.forall_mem_singleton.2 (le_of_isContinuation tail).1
  · unfold scanUtf8
    simp only [if_neg ascii, if_neg lead, if_pos two, List.singleton_append, tail, if_true]
    rfl

/-- Three octets of a character. The second one is as large as it has to be for a character that needs three. -/
theorem isChar_three {b x y : UInt8} (two : ¬ b.toNat < 0xe0) (three : b.toNat < 0xf0)
    (first : ¬ (!isContinuation x || (b.toNat == 0xe0 && x < 0xa0)) = true) (second : isContinuation y = true) :
    IsChar [b, x, y] (charOf ((b.toNat - 0xe0) * 4096 + (x.toNat - 0x80) * 64 + (y.toNat - 0x80))) := by
  have ascii : ¬ b.toNat < 0x80 := by omega
  have lead : ¬ b.toNat < 0xc2 := by omega
  obtain ⟨tail, least⟩ : isContinuation x = true ∧ (b.toNat = 0xe0 → 0xa0 ≤ x.toNat) := by
    simpa [UInt8.lt_iff_toNat_lt] using first
  have low := (le_of_isContinuation tail).1
  refine .wide (by omega) (le_toNat_charOf ?_) ?_ fun rest => ?_
  · by_cases small : b.toNat = 0xe0
    · have := least small
      omega
    · omega
  · exact List.forall_mem_cons.2 ⟨low, List.forall_mem_singleton.2 (le_of_isContinuation second).1⟩
  · unfold scanUtf8
    simp only [if_neg ascii, if_neg lead, if_neg two, if_pos three, List.cons_append, List.nil_append]
    rw [if_neg first]
    simp [second]

/-- Four octets of a character. -/
theorem isChar_four {b x y z : UInt8} (three : ¬ b.toNat < 0xf0) (four : b.toNat < 0xf5)
    (first : ¬ (!isContinuation x || (b.toNat == 0xf0 && x < 0x90) || (b.toNat == 0xf4 && 0x90 ≤ x)) = true)
    (second : isContinuation y = true) (third : isContinuation z = true) :
    IsChar [b, x, y, z]
    (charOf ((b.toNat - 0xf0) * 262144 + (x.toNat - 0x80) * 4096 + (y.toNat - 0x80) * 64 + (z.toNat - 0x80))) := by
  have ascii : ¬ b.toNat < 0x80 := by omega
  have lead : ¬ b.toNat < 0xc2 := by omega
  have two : ¬ b.toNat < 0xe0 := by omega
  obtain ⟨⟨tail, least⟩, _⟩ : (isContinuation x = true ∧ (b.toNat = 0xf0 → 0x90 ≤ x.toNat)) ∧
      (b.toNat = 0xf4 → x.toNat < 0x90) := by
    simpa [UInt8.lt_iff_toNat_lt, UInt8.le_iff_toNat_le, not_or] using first
  have low := (le_of_isContinuation tail).1
  refine .wide (by omega) (le_toNat_charOf ?_) ?_ fun rest => ?_
  · by_cases small : b.toNat = 0xf0
    · have := least small
      omega
    · omega
  · exact List.forall_mem_cons.2 ⟨low, List.forall_mem_cons.2
      ⟨(le_of_isContinuation second).1, List.forall_mem_singleton.2 (le_of_isContinuation third).1⟩⟩
  · unfold scanUtf8
    simp only [if_neg ascii, if_neg lead, if_neg two, if_neg three, if_pos four, List.cons_append, List.nil_append]
    rw [if_neg first]
    simp only [second, third, if_true]
    rfl

/-- What is found at the head of octets are the octets of a character. -/
theorem isChar_of_scanUtf8 {b : UInt8} {rest : Octets} {c : Char} {n : Nat} (h : scanUtf8 true b rest = .char c n) :
    ∃ tails more, rest = tails ++ more ∧ n = tails.length + 1 ∧ IsChar (b :: tails) c := by
  unfold scanUtf8 at h
  dsimp only at h
  -- The cases are those of the lead octet, and within them those of the octets behind it.
  split at h
  case isTrue low =>
    cases h
    exact ⟨[], rest, rfl, rfl, .ascii low (charOf_valid (.inl (by omega)))⟩
  case isFalse =>
  split at h
  case isTrue => cases h
  case isFalse lead =>
  split at h
  case isTrue two =>
    split at h
    case h_1 x more =>
      split at h
      case isFalse => cases h
      case isTrue tail =>
        rw [Scan.char.injEq] at h
        obtain ⟨rfl, rfl⟩ := h
        exact ⟨[x], more, rfl, rfl, isChar_two lead two tail⟩
    case h_2 => cases h
  case isFalse two =>
  split at h
  case isTrue three =>
    split at h
    case h_1 => cases h
    case h_2 x rest =>
      split at h
      case isTrue => cases h
      case isFalse first =>
      split at h
      case isTrue => cases h
      case isFalse surrogate =>
      split at h
      case h_1 => cases h
      case h_2 y more =>
        split at h
        case isFalse => cases h
        case isTrue second =>
          rw [Scan.char.injEq] at h
          obtain ⟨rfl, rfl⟩ := h
          exact ⟨[x, y], more, rfl, rfl, isChar_three two three first second⟩
  case isFalse three =>
  split at h
  case isFalse => cases h
  case isTrue four =>
    split at h
    case h_1 => cases h
    case h_2 x rest =>
      split at h
      case isTrue => cases h
      case isFalse first =>
      split at h
      case h_1 => cases h
      case h_2 y rest =>
        split at h
        case isTrue => cases h
        case isFalse second =>
        split at h
        case h_1 => cases h
        case h_2 z more =>
          split at h
          case isFalse => cases h
          case isTrue third =>
            rw [Scan.char.injEq] at h
            obtain ⟨rfl, rfl⟩ := h
            exact ⟨[x, y, z], more, rfl, rfl, isChar_four three four first (by simpa using second) third⟩

/-- The octets of a character, and whether it is one of ASCII. -/
theorem IsChar.cases {u : Octets} {c : Char} (h : IsChar u c) :
    (∃ b : UInt8, u = [b] ∧ b.toNat < 0x80 ∧ c.toNat = b.toNat) ∨
    (u ≠ [] ∧ (∀ b ∈ u, 0x80 ≤ b.toNat) ∧ 0x80 ≤ c.toNat) := by
  cases h with
  | ascii low same => exact .inl ⟨_, rfl, low, same⟩
  | wide lead high continues => exact .inr ⟨by simp, List.forall_mem_cons.2 ⟨lead, continues⟩, high⟩

theorem IsChar.scan {b : UInt8} {tails : Octets} {c : Char} (h : IsChar (b :: tails) c) (rest : Octets) :
    scanUtf8 true b (tails ++ rest) = .char c (tails.length + 1) := by
  cases h with
  | ascii low same =>
    unfold scanUtf8
    dsimp only
    rw [if_pos low, ← same, charOf_toNat]
    rfl
  | wide _ _ _ scanned => exact scanned rest

/-! ## Texts -/

section Texts

variable {bs more : Octets} {cs ds : List Char} {b : UInt8}

theorem decodeFrom_skip (pos : Nat) (acc : List Char) (tails rest : Octets) :
    decodeFrom true pos tails.length acc (tails ++ rest) = decodeFrom true (pos + tails.length) 0 acc rest := by
  induction tails generalizing pos with
  | nil => rfl
  | cons t tails ih =>
    rw [List.length_cons, List.cons_append, decodeFrom, ih, Nat.add_right_comm, Nat.add_assoc]

theorem decodes_of_decodeFrom {pos : Nat} {acc : List Char} (h : decodeFrom true pos 0 acc bs = .ok cs) :
    ∃ ds, cs = acc.reverse ++ ds ∧ Decodes bs ds := by
  induction hn : bs.length using Nat.strongRecOn generalizing bs pos acc with
  | ind n ih =>
  cases bs with
  | nil =>
    rw [decodeFrom] at h
    cases h
    exact ⟨[], (List.append_nil _).symm, .nil⟩
  | cons b rest =>
    rw [decodeFrom] at h
    cases scan : scanUtf8 true b rest with
    | fault k reason =>
      rw [scan] at h
      cases h
    | char c k =>
      rw [scan] at h
      obtain ⟨tails, more, rfl, rfl, first⟩ := isChar_of_scanUtf8 scan
      simp only [Nat.add_sub_cancel, decodeFrom_skip] at h
      rw [List.length_cons, List.length_append] at hn
      obtain ⟨ds, rfl, rest⟩ := ih more.length (by omega) h rfl
      exact ⟨c :: ds, by simp, .cons first rest⟩

theorem decodes_of_decode (h : decode true bs = .ok cs) : Decodes bs cs := by
  obtain ⟨ds, rfl, decodes⟩ := decodes_of_decodeFrom h
  exact decodes

theorem Decodes.decodeFrom (h : Decodes bs cs) (pos : Nat) (acc : List Char) :
    decodeFrom true pos 0 acc bs = .ok (acc.reverse ++ cs) := by
  induction h generalizing pos acc with
  | nil => rw [Text.decodeFrom, List.append_nil]
  | @cons u bs c cs first rest ih =>
    cases u with
    | nil => cases first
    | cons b tails =>
      rw [List.cons_append, Text.decodeFrom]
      simp only [first.scan, Nat.add_sub_cancel, decodeFrom_skip, ih]
      simp

/-- Octets that stand for characters are read as those. -/
theorem Decodes.decode (h : Decodes bs cs) : decode true bs = .ok cs :=
  h.decodeFrom 0 []

theorem Decodes.eq_nil (h : Decodes [] cs) : cs = [] := by
  have read := h.decode
  cases read
  rfl

/-- In front of an octet of ASCII a text falls into two. -/
theorem Decodes.split {xs ys : Octets} (h : Decodes bs cs) (hb : bs = xs ++ b :: ys) (low : b.toNat < 0x80) :
    ∃ ks ls, cs = ks ++ ls ∧ Decodes xs ks ∧ Decodes (b :: ys) ls := by
  induction h generalizing xs with
  | nil => simp at hb
  | @cons u bs c cs first rest ih =>
    rcases List.append_eq_append_iff.1 hb with ⟨zs, rfl, hbs⟩ | ⟨zs, rfl, hys⟩
    · obtain ⟨ks, ls, rfl, before, behind⟩ := ih hbs
      rw [List.append_assoc] at *
      exact ⟨c :: ks, ls, rfl, .cons first before, behind⟩
    · cases zs with
      | nil =>
        exact ⟨[c], cs, rfl, by simpa using Decodes.cons first .nil, by rw [hys]; exact rest⟩
      | cons z zs =>
        obtain ⟨rfl, rfl⟩ := List.cons.inj hys
        rcases first.cases with ⟨a, single, _, _⟩ | ⟨_, high, _⟩
        · obtain ⟨rfl, rfl⟩ : xs = [] ∧ zs = [] := by
            have := congrArg List.length single
            simp only [List.length_append, List.length_cons, List.length_nil] at this
            exact ⟨List.length_eq_zero_iff.1 (by omega), List.length_eq_zero_iff.1 (by omega)⟩
          exact ⟨[], c :: cs, rfl, .nil, .cons first rest⟩
        · exact absurd (high b (by simp)) (Nat.not_le.2 low)

/-- The first octet of ASCII is the first character. -/
theorem Decodes.head (h : Decodes (b :: bs) cs) (low : b.toNat < 0x80) :
    ∃ c ds, cs = c :: ds ∧ c.toNat = b.toNat ∧ Decodes bs ds := by
  generalize hu : b :: bs = all at h
  cases h with
  | nil => cases hu
  | @cons u _ c ds first rest =>
    rcases first.cases with ⟨a, rfl, _, same⟩ | ⟨some, high, _⟩
    · obtain ⟨rfl, rfl⟩ := List.cons.inj hu
      exact ⟨c, ds, rfl, same, rest⟩
    · cases u with
      | nil => exact absurd rfl some
      | cons a u =>
        obtain ⟨rfl, _⟩ := List.cons.inj hu
        exact absurd (high b List.mem_cons_self) (Nat.not_le.2 low)

/-- Octets of ASCII stand for as many characters, with the same numbers. -/
theorem Decodes.ascii {as : Octets} (h : Decodes (as ++ bs) cs) (ascii : ∀ b ∈ as, b.toNat < 0x80) :
    ∃ ks ls, cs = ks ++ ls ∧ ks.map Char.toNat = as.map UInt8.toNat ∧ Decodes bs ls := by
  induction as generalizing cs with
  | nil => exact ⟨[], cs, rfl, rfl, h⟩
  | cons b as ih =>
    obtain ⟨low, ascii⟩ := List.forall_mem_cons.1 ascii
    obtain ⟨c, ds, rfl, same, h⟩ := h.head low
    obtain ⟨ks, ls, rfl, numbers, h⟩ := ih h ascii
    exact ⟨c :: ks, ls, rfl, by rw [List.map_cons, List.map_cons, same, numbers], h⟩

/-- Every octet of ASCII is a character somewhere. -/
theorem Decodes.exists_of_mem (h : Decodes bs cs) (hb : b ∈ bs) (low : b.toNat < 0x80) :
    ∃ c ∈ cs, c.toNat = b.toNat := by
  induction h with
  | nil => cases hb
  | @cons u bs c cs first rest ih =>
    rcases List.mem_append.1 hb with hb | hb
    · rcases first.cases with ⟨a, rfl, _, same⟩ | ⟨_, high, _⟩
      · cases List.mem_singleton.1 hb
        exact ⟨c, List.mem_cons_self, same⟩
      · exact absurd (high b hb) (Nat.not_le.2 low)
    · obtain ⟨d, hd, same⟩ := ih hb
      exact ⟨d, List.mem_cons_of_mem c hd, same⟩

end Texts

end LspClient.Text
