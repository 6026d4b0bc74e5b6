/-
The grammar of frames. On a stream that has ended, reading a frame comes to its body exactly when
the octets begin with a block of headers that announces so many octets, and these are there; to the
end exactly when nothing is left but a few blanks; to the fault for too large a body exactly when
the announced octets are there and the limit is passed; and in every other case to a broken stream.

The lines before the blank one are followed by induction on what they leave of the length
(`Collects`); that nothing else is accepted is an induction on the octets (`run_cases`).
-/
import LspClient.Proofs.Frame.Takes
import LspClient.Proofs.Text.Numeral

namespace LspClient.Frame

/-! ## The grammar -/

/-- What stands before the first colon of a line, and behind it. -/
def Splits (line : Octets) (name value : List Char) : Prop :=
  Text.decodeAscii line = name ++ ':' :: value ∧ ':' ∉ name

/-- The name of the header for the length, in any letter case and between blanks. -/
inductive IsLengthName : List Char → Prop
  | intro {before word after : List Char} (hb : ∀ c ∈ before, Text.isBlank c = true)
    (hw : word.map Char.toLower = lengthHeader.toList) (ha : ∀ c ∈ after, Text.isBlank c = true) :
    IsLengthName (before ++ word ++ after)

/-- A header for the length, with any value. -/
def IsLengthLine (line : Octets) : Prop :=
  ∃ name value, Splits line name value ∧ IsLengthName name

/-- A header that gives this length. -/
def Gives (line : Octets) (n : Nat) : Prop :=
  ∃ name value, Splits line name value ∧ IsLengthName name ∧ Text.Writes value n

/-- A header line, without the separator behind it. -/
structure IsHeader (lineLimit : Nat) (line : Octets) : Prop where
  nonempty : line ≠ []
  whole : ¬ separator <:+: line
  short : line.length ≤ lineLimit
  colon : 0x3a ∈ line

/-- Headers that announce a body of so many octets: all headers for the length have a length to
give, and the last of them gives this one. -/
structure Announces (lineLimit : Nat) (headers : List Octets) (n : Nat) : Prop where
  lines : ∀ line ∈ headers, IsHeader lineLimit line
  lengths : ∀ line ∈ headers, IsLengthLine line → ∃ k, Gives line k
  last : ∃ before line after, headers = before ++ line :: after ∧ Gives line n ∧ ∀ other ∈ after, ¬ IsLengthLine other

/-- Lines with their separators. -/
def joined (headers : List Octets) : Octets :=
  headers.flatMap (· ++ separator)

/-- Headers with the blank line behind them. -/
def block (headers : List Octets) : Octets :=
  joined headers ++ separator

/-- A stream that has ended, with these octets left. -/
def left (lineLimit : Nat) (input : Octets) : Stream :=
  { buffer := input, ended := true, limit := lineLimit }

/-! ## Names and values -/

section Lines

variable {line : Octets} {name value : List Char} {n : Nat}

theorem toNat_ofNat {n : Nat} (h : n < 128) : (Char.ofNat n).toNat = n := by
  have valid : n.isValidChar := .inl (by omega)
  unfold Char.ofNat
  rw [dif_pos valid]
  rfl

theorem not_mem_decodeAscii (h : 0x3a ∉ line) : ':' ∉ Text.decodeAscii line := by
  unfold Text.decodeAscii
  rw [List.mem_map]
  rintro ⟨b, hb, he⟩
  split at he
  case isTrue lt =>
    have lt : b.toNat < 128 := lt
    have same := congrArg Char.toNat he
    rw [toNat_ofNat lt] at same
    have : b = 0x3a := UInt8.toNat_inj.1 same
    exact h (this ▸ hb)
  case isFalse =>
    revert he
    decide

/-- A line has a colon exactly if it splits into a name and a value. -/
theorem exists_splits : (∃ name value, Splits line name value) ↔ 0x3a ∈ line := by
  constructor
  · rintro ⟨name, value, h, _⟩
    refine Decidable.not_not.1 fun hc => not_mem_decodeAscii hc ?_
    rw [h]
    exact List.mem_append_right _ List.mem_cons_self
  · intro h
    have hc : ':' ∈ Text.decodeAscii line := List.mem_map.2 ⟨0x3a, h, by decide⟩
    obtain ⟨name, value, he, hn⟩ := List.eq_append_cons_of_mem hc
    exact ⟨name, value, he, hn⟩

theorem toLower_of_isBlank {c : Char} (h : Text.isBlank c = true) : c.toLower = c := by
  unfold Char.toLower
  rw [dif_neg]
  rintro ⟨h1, h2⟩
  have h1 : 65 ≤ c.toNat := h1
  have h2 : c.toNat ≤ 90 := h2
  unfold Text.isBlank at h
  simp only [Bool.or_eq_true, Bool.and_eq_true, beq_iff_eq, decide_eq_true_eq] at h
  omega

theorem isLengthName_iff :
    IsLengthName name ↔ String.ofList ((Text.trimBoth Text.isBlank name).map Char.toLower) = lengthHeader := by
  have chars : ∀ {cs : List Char}, String.ofList cs = lengthHeader ↔ cs = lengthHeader.toList := by
    intro cs
    rw [← String.toList_inj, String.toList_ofList]
  rw [chars]
  constructor
  · rintro @⟨before, word, after, hb, hw, ha⟩
    -- The name begins and ends with a letter.
    have letter : ∀ {x y : Char}, x.toLower = y → Text.isBlank y = false → Text.isBlank x = false := by
      intro x y he hy
      cases hx : Text.isBlank x with
      | false => rfl
      | true =>
        rw [← he, toLower_of_isBlank hx] at hy
        cases hx.symm.trans hy
    rw [Text.trimBoth_append hb ha, Text.trimBoth_eq_self, hw]
    · intro x hx
      have first : some x.toLower = lengthHeader.toList.head? := by rw [← hw, List.head?_map, hx]; rfl
      exact letter (Option.some.inj first) (by decide)
    · intro x hx
      have last : some x.toLower = lengthHeader.toList.getLast? := by rw [← hw, List.getLast?_map, hx]; rfl
      exact letter (Option.some.inj last) (by decide)
  · intro h
    obtain ⟨before, after, hx, hb, ha⟩ := Text.exists_trimBoth Text.isBlank name
    rw [hx]
    exact .intro hb h ha

/-- What a header line gives, the separator behind it included. -/
theorem headerLength?_splits (h : Splits line name value) : headerLength? (line ++ separator) =
    if String.ofList ((Text.trimBoth Text.isBlank name).map Char.toLower) = lengthHeader then
      match Text.integer? (String.ofList value) with
      | some n =>
        if n < 0 then .error (.connection ("Invalid Content-Length: " ++ toString n)) else .ok (some n.toNat)
      | none => .error (.connection ("Invalid Content-Length: " ++
          Text.quoted (Text.strip (String.ofList (value ++ ['\r', '\n'])))))
    else .ok none := by
  have chars : Text.decodeAscii (line ++ separator) = name ++ (':' :: (value ++ ['\r', '\n'])) := by
    rw [Text.decodeAscii_append, h.1, List.append_assoc]
    rfl
  have first : (name ++ (':' :: (value ++ ['\r', '\n']))).takeWhile (· != ':') = name := by
    rw [List.takeWhile_append_of_pos]
    · simp
    · intro c hc
      simpa using fun he : c = ':' => h.2 (he ▸ hc)
  have stripped : Text.integer? (Text.strip (String.ofList ([] ++ value ++ ['\r', '\n']))) =
      Text.integer? (String.ofList value) :=
    Text.integer?_strip (by simp) (by simp [Text.isBlank])
  unfold headerLength?
  rw [chars]
  simp only [first, List.drop_left]
  rw [List.nil_append] at stripped
  rewrite [stripped]
  rfl

theorem headerLength?_no_colon (h : 0x3a ∉ line) : ∃ f, headerLength? (line ++ separator) = .error f := by
  have none : ':' ∉ Text.decodeAscii (line ++ separator) := by
    refine not_mem_decodeAscii fun hm => ?_
    rcases List.mem_append.1 hm with hm | hm
    · exact h hm
    · revert hm
      decide
  have all : (Text.decodeAscii (line ++ separator)).takeWhile (· != ':') = Text.decodeAscii (line ++ separator) := by
    rw [← List.append_nil (Text.decodeAscii (line ++ separator)), List.takeWhile_append_of_pos, List.takeWhile_nil]
    intro c hc
    simpa using fun he : c = ':' => none (he ▸ hc)
  unfold headerLength?
  simp only [all, List.drop_length]
  exact ⟨_, rfl⟩

/-- The lines that are passed over are those with a colon and another name. -/
theorem headerLength?_none : headerLength? (line ++ separator) = .ok none ↔ 0x3a ∈ line ∧ ¬ IsLengthLine line := by
  constructor
  · intro h
    have hc : 0x3a ∈ line := by
      refine Decidable.not_not.1 fun hc => ?_
      obtain ⟨f, hf⟩ := headerLength?_no_colon hc
      rw [hf] at h
      cases h
    refine ⟨hc, ?_⟩
    rintro ⟨name, value, split, hn⟩
    rw [headerLength?_splits split, if_pos (isLengthName_iff.1 hn)] at h
    split at h
    · split at h <;> cases h
    · cases h
  · rintro ⟨hc, hn⟩
    obtain ⟨name, value, split⟩ := exists_splits.2 hc
    rw [headerLength?_splits split, if_neg]
    exact fun h => hn ⟨name, value, split, isLengthName_iff.2 h⟩

/-- The lines that give a length are those of the grammar. -/
theorem headerLength?_some : headerLength? (line ++ separator) = .ok (some n) ↔ Gives line n := by
  constructor
  · intro h
    have hc : 0x3a ∈ line := by
      refine Decidable.not_not.1 fun hc => ?_
      obtain ⟨f, hf⟩ := headerLength?_no_colon hc
      rw [hf] at h
      cases h
    obtain ⟨name, value, splits⟩ := exists_splits.2 hc
    rw [headerLength?_splits splits] at h
    split at h
    case isFalse => cases h
    case isTrue hn =>
      split at h
      case h_2 => cases h
      case h_1 k hk =>
        split at h
        case isTrue => cases h
        case isFalse hneg =>
          cases h
          refine ⟨name, value, splits, isLengthName_iff.2 hn, ?_⟩
          rw [Int.toNat_of_nonneg (by omega)]
          exact Text.integer?_iff.1 hk
  · rintro ⟨name, value, splits, hn, hw⟩
    rw [headerLength?_splits splits, if_pos (isLengthName_iff.1 hn), Text.integer?_iff.2 hw]
    simp only [Int.toNat_natCast]
    rw [if_neg (by omega)]

end Lines

/-! ## Taking the lines of a block -/

section Left

variable {limit : Number} {lineLimit n : Nat} {input rest tail line : Octets} {headers : List Octets}
  {length found : Option Nat}

/-- The first separator behind a line with none inside. -/
theorem offsetOf?_behind (h : ¬ separator <:+: line) (rest : Octets) :
    Stream.offsetOf? separator (line ++ separator ++ rest) = some line.length := by
  refine (Stream.offsetOf?_eq_some separator_ne_nil).2 ⟨?_, fun j hj hp => h ?_⟩
  · rw [List.append_assoc, List.drop_left]
    exact List.prefix_append _ _
  · rw [List.append_assoc, List.drop_append_of_le_length (Nat.le_of_lt hj)] at hp
    refine List.IsInfix.trans ?_ (List.drop_suffix j line).isInfix
    -- One octet of the line is not enough: what follows it is the first half of a separator.
    cases hd : line.drop j with
    | nil =>
      have := congrArg List.length hd
      rw [List.length_drop, List.length_nil] at this
      omega
    | cons a as =>
      rw [hd] at hp
      cases as with
      | nil =>
        obtain ⟨t, ht⟩ := hp
        unfold separator at ht
        cases ht
      | cons b as =>
        refine List.IsPrefix.isInfix (List.prefix_of_prefix_length_le hp (List.prefix_append _ _) ?_)
        simp [separator]

/-- What stands before the first separator has none inside. -/
theorem exists_line {i : Nat} (h : Stream.offsetOf? separator input = some i) :
    ∃ line rest, input = line ++ separator ++ rest ∧ line.length = i ∧ ¬ separator <:+: line := by
  have hl := Stream.add_length_le separator_ne_nil h
  obtain ⟨⟨rest, hr⟩, first⟩ := (Stream.offsetOf?_eq_some separator_ne_nil).1 h
  have len : (input.take i).length = i := by
    rw [List.length_take]
    omega
  refine ⟨input.take i, rest, ?_, len, ?_⟩
  · rw [List.append_assoc, hr, List.take_append_drop]
  · rintro ⟨before, after, hx⟩
    have short : before.length < i := by
      have := congrArg List.length hx
      rw [len, List.length_append, List.length_append] at this
      have : separator.length = 2 := rfl
      omega
    refine first before.length short ?_
    rw [← List.take_append_drop i input, ← hx, List.append_assoc, List.append_assoc, List.drop_left]
    exact List.prefix_append _ _

theorem takeLine?_line (h : ¬ separator <:+: line) (short : line.length ≤ lineLimit) (rest : Octets) :
    (left lineLimit (line ++ separator ++ rest)).takeLine? separator =
      some (.line (line ++ separator), left lineLimit rest) := by
  unfold Stream.takeLine? left
  rw [offsetOf?_behind h]
  simp only [Nat.not_lt.2 short, ite_false, ← List.length_append, List.take_left, List.drop_left]

theorem takeLine?_remainder (h : ¬ separator <:+: input) (short : input.length ≤ lineLimit + 1) :
    (left lineLimit input).takeLine? separator = some (.remainder input, left lineLimit []) := by
  have hsep : separator.length = 2 := rfl
  unfold Stream.takeLine? left
  rw [(Stream.offsetOf?_eq_none separator_ne_nil).2 h]
  simp only [hsep, Bool.and_eq_true, decide_eq_true_eq]
  rw [if_neg (by omega)]
  rfl

/-- What a line at the end of a stream can be. -/
theorem takeLine?_cases (lineLimit : Nat) (input : Octets) :
    (∃ line rest, input = line ++ separator ++ rest ∧ ¬ separator <:+: line ∧ line.length ≤ lineLimit) ∨
    (¬ separator <:+: input ∧ input.length ≤ lineLimit + 1) ∨
    (left lineLimit input).takeLine? separator = some (.overrun, left lineLimit input) := by
  have hsep : separator.length = 2 := rfl
  cases h : Stream.offsetOf? separator input with
  | some i =>
    obtain ⟨line, rest, hx, hl, hn⟩ := exists_line h
    by_cases short : line.length ≤ lineLimit
    · exact .inl ⟨line, rest, hx, hn, short⟩
    · refine .inr (.inr ?_)
      unfold Stream.takeLine? left
      rw [h]
      refine if_pos ?_
      show lineLimit < i
      omega
  | none =>
    have hn := (Stream.offsetOf?_eq_none separator_ne_nil).1 h
    by_cases short : input.length ≤ lineLimit + 1
    · exact .inr (.inl ⟨hn, short⟩)
    · refine .inr (.inr ?_)
      unfold Stream.takeLine? left
      rw [h]
      refine if_pos ?_
      simp only [hsep, Bool.and_eq_true, decide_eq_true_eq]
      omega

/-! ## Following the length through a block -/

/-- What header lines leave of the length that was known before them. -/
inductive Collects : Option Nat → List Octets → Option Nat → Prop
  | none {length : Option Nat} : Collects length [] length
  | other {length found : Option Nat} {line : Octets} {headers : List Octets} (hn : ¬ IsLengthLine line)
    (rest : Collects length headers found) : Collects length (line :: headers) found
  | gives {length found : Option Nat} {line : Octets} {headers : List Octets} {n : Nat} (hg : Gives line n)
    (rest : Collects (some n) headers found) : Collects length (line :: headers) found

theorem Gives.isLengthLine (h : Gives line n) : IsLengthLine line :=
  let ⟨name, value, splits, hn, _⟩ := h
  ⟨name, value, splits, hn⟩

theorem collects_iff : Collects length headers found ↔ (∀ line ∈ headers, IsLengthLine line → ∃ k, Gives line k) ∧
    ((∃ before line after n, headers = before ++ line :: after ∧ Gives line n ∧ found = some n ∧
        ∀ other ∈ after, ¬ IsLengthLine other) ∨
      (∀ line ∈ headers, ¬ IsLengthLine line) ∧ found = length) := by
  constructor
  · intro h
    induction h with
    | none => exact ⟨by simp, .inr ⟨by simp, rfl⟩⟩
    | @other length found line headers hn _ ih =>
      obtain ⟨lengths, ih⟩ := ih
      refine ⟨?_, ?_⟩
      · rintro line' hm hl
        rcases List.mem_cons.1 hm with rfl | hm
        · exact absurd hl hn
        · exact lengths line' hm hl
      · rcases ih with ⟨before, line', after, n, rfl, ih⟩ | ⟨none, rfl⟩
        · exact .inl ⟨line :: before, line', after, n, rfl, ih⟩
        · exact .inr ⟨List.forall_mem_cons.2 ⟨hn, none⟩, rfl⟩
    | @gives length found line headers n hg _ ih =>
      obtain ⟨lengths, ih⟩ := ih
      refine ⟨List.forall_mem_cons.2 ⟨fun _ => ⟨n, hg⟩, lengths⟩, ?_⟩
      rcases ih with ⟨before, line', after, n, rfl, ih⟩ | ⟨none, rfl⟩
      · exact .inl ⟨line :: before, line', after, n, rfl, ih⟩
      · exact .inl ⟨[], line, headers, n, rfl, hg, rfl, none⟩
  · rintro ⟨lengths, h⟩
    induction headers generalizing length with
    | nil =>
      rcases h with ⟨before, line, after, n, hx, _⟩ | ⟨_, rfl⟩
      · simp at hx
      · exact .none
    | cons line headers ih =>
      obtain ⟨first, lengths⟩ := List.forall_mem_cons.1 lengths
      by_cases hl : IsLengthLine line
      · obtain ⟨k, hg⟩ := first hl
        refine .gives hg (ih lengths ?_)
        rcases h with ⟨before, line', after, n, hx, hg', rfl, none⟩ | ⟨none, _⟩
        · cases before with
          | nil =>
            cases hx
            -- The value of one line gives one length.
            have := (headerLength?_some.2 hg).symm.trans (headerLength?_some.2 hg')
            cases this
            exact .inr ⟨none, rfl⟩
          | cons line'' before =>
            cases hx
            exact .inl ⟨before, line', after, n, rfl, hg', rfl, none⟩
        · exact absurd hl (none line List.mem_cons_self)
      · refine .other hl (ih lengths ?_)
        rcases h with ⟨before, line', after, n, hx, hg', rfl, none⟩ | ⟨none, rfl⟩
        · cases before with
          | nil =>
            cases hx
            exact absurd hg'.isLengthLine hl
          | cons line'' before =>
            cases hx
            exact .inl ⟨before, line', after, n, rfl, hg', rfl, none⟩
        · exact .inr ⟨(List.forall_mem_cons.1 none).2, rfl⟩

/-- Headers announce a length if following it through them ends with it. -/
theorem announces_iff :
    Announces lineLimit headers n ↔ (∀ line ∈ headers, IsHeader lineLimit line) ∧ Collects none headers (some n) := by
  rw [collects_iff]
  constructor
  · rintro ⟨lines, lengths, before, line, after, hx, hg, none⟩
    exact ⟨lines, lengths, .inl ⟨before, line, after, n, hx, hg, rfl, none⟩⟩
  · rintro ⟨lines, lengths, ⟨before, line, after, k, hx, hg, he, none⟩ | ⟨_, he⟩⟩
    · cases he
      exact ⟨lines, lengths, before, line, after, hx, hg, none⟩
    · cases he

/-! ## Reading a block and what it announces -/

/-- Reading on behind a block. -/
def behind (limit : Number) (lineLimit n : Nat) (tail : Octets) : Stop :=
  run limit false (if limit.lt (.int n) then .head n else .body n) (left lineLimit tail)

theorem block_cons (line : Octets) (headers : List Octets) (tail : Octets) :
    block (line :: headers) ++ tail = line ++ separator ++ (block headers ++ tail) := by
  simp [block, joined]

/-- One header line is taken, and reading goes on behind it. -/
theorem run_line (limit : Number) {first : Bool} {length length' : Option Nat} (hl : IsHeader lineLimit line)
    (h : headerLength? (line ++ separator) = .ok length') (rest : Octets) :
    run limit false (.headers length first) (left lineLimit (line ++ separator ++ rest)) =
      run limit false (.headers (length'.or length) false) (left lineLimit rest) := by
  have ne : line ++ separator ≠ separator := fun he => hl.nonempty (List.append_left_eq_self.1 he)
  rw [run_eq (s := left lineLimit (line ++ separator ++ rest)) rfl]
  simp only [advance, takeLine?_line hl.whole hl.short, afterLine, if_neg ne, h]

/-- Header lines and the blank line behind them are taken. -/
theorem run_block {first : Bool} (h : Collects length headers (some n))
    (lines : ∀ line ∈ headers, IsHeader lineLimit line) (tail : Octets) :
    run limit false (.headers length first) (left lineLimit (block headers ++ tail)) =
      behind limit lineLimit n tail := by
  generalize hf : some n = found at h
  induction h generalizing first with
  | none =>
    cases hf
    have line : (left lineLimit ([] ++ separator ++ tail)).takeLine? separator = _ :=
      takeLine?_line (by simp [separator]) (Nat.zero_le _) tail
    have blank : advance limit (.headers (some n) first) (left lineLimit (separator ++ tail)) =
        .next (if limit.lt (.int n) then .head n else .body n) (left lineLimit tail) := by
      rw [List.nil_append] at line
      simp only [advance, line, afterLine, if_true]
      split <;> rfl
    exact (run_eq (s := left lineLimit (separator ++ tail)) rfl false _).trans (by rw [blank]; rfl)
  | @other length found line headers hn _ ih =>
    obtain ⟨hl, lines⟩ := List.forall_mem_cons.1 lines
    rw [block_cons, run_line limit hl (headerLength?_none.2 ⟨hl.colon, hn⟩)]
    exact ih lines hf
  | @gives length found line headers k hg _ ih =>
    obtain ⟨hl, lines⟩ := List.forall_mem_cons.1 lines
    rw [block_cons, run_line limit hl (headerLength?_some.2 hg)]
    exact ih lines hf

theorem takeExactly?_left (lineLimit k : Nat) (input : Octets) : (left lineLimit input).takeExactly? k =
    if k ≤ input.length then some (some (input.take k), left lineLimit (input.drop k))
    else some (none, left lineLimit []) :=
  rfl

/-- What a reader comes to behind a block. -/
theorem behind_eq (limit : Number) (lineLimit n : Nat) (tail : Octets) : behind limit lineLimit n tail =
    if n ≤ tail.length then
      if limit.lt (.int n) then
        .done (tooLarge limit n (tail.take (min n Message.headSize))) (left lineLimit (tail.drop n))
      else .done (.frame (tail.take n)) (left lineLimit (tail.drop n))
    else .done (.fault cutShort) (left lineLimit []) := by
  unfold behind
  cases limit.lt (.int n) with
  | false =>
    rw [run_eq (s := left lineLimit tail) rfl]
    simp only [Bool.false_eq_true, ite_false, advance, takeExactly?_left]
    by_cases hn : n ≤ tail.length
    · rw [if_pos hn, if_pos hn]
    · rw [if_neg hn, if_neg hn]
  | true =>
    rw [run_eq (s := left lineLimit tail) rfl]
    simp only [ite_true, advance, takeExactly?_left]
    generalize hk : min n Message.headSize = k
    by_cases hh : k ≤ tail.length
    · have len : (tail.take k).length = k := by
        rw [List.length_take]
        omega
      rw [if_pos hh]
      simp only [len]
      rw [run_discard false n (n - k) _ (left lineLimit (tail.drop k)) rfl]
      simp only [left, List.length_drop, List.drop_drop]
      have all : k + (n - k) = n := by omega
      by_cases hn : n ≤ tail.length
      · rw [if_pos hn, if_pos (by omega), all]
      · rw [if_neg hn, if_neg (by omega)]
        rfl
    · rw [if_neg hh, if_neg (by omega)]

/-- Whatever is left of a stream, reading it comes to a block and what is behind it, to the end, or
to a fault of the connection. -/
theorem run_cases (limit : Number) (lineLimit : Nat) (length : Option Nat) (first : Bool) (input : Octets) :
    (∃ headers n tail, (∀ line ∈ headers, IsHeader lineLimit line) ∧ Collects length headers (some n) ∧
      input = block headers ++ tail) ∨
    (first = true ∧ ¬ separator <:+: input ∧ input.length ≤ lineLimit + 1 ∧
      ∀ b ∈ input, Text.isBlankOctet b = true) ∨
    ∃ message s, run limit false (.headers length first) (left lineLimit input) =
      .done (.fault (.connection message)) s := by
  generalize hc : input.length = c
  induction c using Nat.strongRecOn generalizing length first input with
  | _ c ih =>
    have step : run limit false (.headers length first) (left lineLimit input) = _ := run_eq rfl false _
    rcases takeLine?_cases lineLimit input with ⟨line, rest, rfl, whole, short⟩ | ⟨none, short⟩ | long
    · have taken := takeLine?_line whole short rest
      by_cases hl : line = []
      · -- The blank line: behind it stands a body, if there is a length.
        cases hl
        cases length with
        | some n => exact .inl ⟨[], n, rest, by simp, .none, rfl⟩
        | none =>
          refine .inr (.inr ?_)
          rw [step]
          simp only [advance, taken]
          exact ⟨_, _, rfl⟩
      · have ne : line ++ separator ≠ separator := fun he => hl (List.append_left_eq_self.1 he)
        have header : 0x3a ∈ line → IsHeader lineLimit line := fun colon => ⟨hl, whole, short, colon⟩
        have less : rest.length < c := by
          rw [← hc, List.length_append, List.length_append]
          have : separator.length = 2 := rfl
          omega
        cases hx : headerLength? (line ++ separator) with
        | error f =>
          obtain ⟨message, rfl⟩ := headerLength?_error hx
          refine .inr (.inr ⟨message, left lineLimit rest, ?_⟩)
          rw [step]
          simp only [advance, taken, afterLine, if_neg ne, hx]
        | ok found =>
          have colon : 0x3a ∈ line := by
            cases found with
            | none => exact (headerLength?_none.1 hx).1
            | some n =>
              obtain ⟨name, value, splits, _⟩ := headerLength?_some.1 hx
              exact exists_splits.1 ⟨name, value, splits⟩
          rw [run_line limit (header colon) hx rest]
          rcases ih _ less (found.or length) false rest rfl with
            ⟨headers, n, tail, lines, collects, hr⟩ | ⟨hf, _⟩ | fault
          · refine .inl ⟨line :: headers, n, tail, List.forall_mem_cons.2 ⟨header colon, lines⟩, ?_, ?_⟩
            cases found with
            | none => exact .other (headerLength?_none.1 hx).2 collects
            | some k => exact .gives (headerLength?_some.1 hx) collects
            rw [block_cons, hr]
          · cases hf
          · exact .inr (.inr fault)
    · have taken := takeLine?_remainder none short
      rw [step]
      simp only [advance, taken]
      by_cases hb : (first && input.all Text.isBlankOctet) = true
      · rw [Bool.and_eq_true, List.all_eq_true] at hb
        exact .inr (.inl ⟨hb.1, none, hc ▸ short, hb.2⟩)
      · rw [if_neg hb]
        exact .inr (.inr ⟨_, _, rfl⟩)
    · rw [step]
      simp only [advance, long]
      exact .inr (.inr ⟨_, _, rfl⟩)

/-- A few blanks before the end of the stream are its end. -/
theorem run_blanks (length : Option Nat) (whole : ¬ separator <:+: input) (short : input.length ≤ lineLimit + 1)
    (blank : ∀ b ∈ input, Text.isBlankOctet b = true) :
    run limit false (.headers length true) (left lineLimit input) = .done .finished (left lineLimit []) := by
  rw [run_eq (s := left lineLimit input) rfl]
  simp only [advance, takeLine?_remainder whole short, Bool.true_and, List.all_eq_true.2 blank, ite_true]

/-! ## The first frame -/

theorem run_announced (h : Announces lineLimit headers n) (tail : Octets) :
    run limit false .start (left lineLimit (block headers ++ tail)) = behind limit lineLimit n tail :=
  have ⟨lines, collects⟩ := announces_iff.1 h
  run_block collects lines tail

theorem start_cases (limit : Number) (lineLimit : Nat) (input : Octets) :
    (∃ headers n tail, Announces lineLimit headers n ∧ input = block headers ++ tail) ∨
    run limit false .start (left lineLimit input) = .done .finished (left lineLimit []) ∧
      input.length ≤ lineLimit + 1 ∧ (∀ b ∈ input, Text.isBlankOctet b = true) ∧ ¬ separator <:+: input ∨
    ∃ message s, run limit false .start (left lineLimit input) = .done (.fault (.connection message)) s := by
  rcases run_cases limit lineLimit none true input with
    ⟨headers, n, tail, lines, collects, rfl⟩ | ⟨_, whole, short, blank⟩ | fault
  · exact .inl ⟨headers, n, tail, announces_iff.2 ⟨lines, collects⟩, rfl⟩
  · exact .inr (.inl ⟨run_blanks none whole short blank, short, blank, whole⟩)
  · exact .inr (.inr fault)

theorem run_frame_iff {body : Octets} :
    run limit false .start (left lineLimit input) = .done (.frame body) (left lineLimit rest) ↔
    limit.lt (.int body.length) = false ∧
      ∃ headers, Announces lineLimit headers body.length ∧ input = block headers ++ body ++ rest := by
  constructor
  · intro h
    rcases start_cases limit lineLimit input with ⟨headers, n, tail, announces, rfl⟩ | ⟨ends, _⟩ | ⟨message, s, fault⟩
    · rw [run_announced announces, behind_eq] at h
      split at h
      case isFalse => cases h
      case isTrue hn =>
        split at h
        case isTrue => cases h
        case isFalse small =>
          cases h
          have len : (tail.take n).length = n := by
            rw [List.length_take]
            omega
          rw [len]
          refine ⟨Bool.eq_false_iff.2 small, headers, announces, ?_⟩
          rw [List.append_assoc, List.take_append_drop]
    · rw [ends] at h
      cases h
    · rw [fault] at h
      cases h
  · rintro ⟨small, headers, announces, rfl⟩
    rw [List.append_assoc, run_announced announces, behind_eq, small, if_pos (by rw [List.length_append]; omega)]
    simp

theorem run_finished_iff : run limit false .start (left lineLimit input) = .done .finished (left lineLimit []) ↔
    input.length ≤ lineLimit + 1 ∧ (∀ b ∈ input, Text.isBlankOctet b = true) ∧ ¬ separator <:+: input := by
  constructor
  · intro h
    rcases start_cases limit lineLimit input with ⟨headers, n, tail, announces, rfl⟩ | ⟨_, blanks⟩ | ⟨message, s, fault⟩
    · rw [run_announced announces, behind_eq] at h
      split at h
      · split at h <;> cases h
      · cases h
    · exact blanks
    · rw [fault] at h
      cases h
  · rintro ⟨short, blank, whole⟩
    exact run_blanks none whole short blank

theorem run_tooLarge_iff {id : Option RequestId} : run limit false .start (left lineLimit input) =
      .done (.fault (.messageTooLarge n limit id)) (left lineLimit rest) ↔
    limit.lt (.int n) = true ∧ ∃ headers body, Announces lineLimit headers n ∧ body.length = n ∧
      id = Message.peekId? (body.take Message.headSize) ∧ input = block headers ++ body ++ rest := by
  constructor
  · intro h
    rcases start_cases limit lineLimit input with ⟨headers, n, tail, announces, rfl⟩ | ⟨ends, _⟩ | ⟨message, s, fault⟩
    · rw [run_announced announces, behind_eq] at h
      split at h
      case isFalse => cases h
      case isTrue hn =>
        split at h
        case isFalse => cases h
        case isTrue large =>
          cases h
          refine ⟨large, headers, tail.take n, announces, ?_, ?_, ?_⟩
          · rw [List.length_take]
            omega
          · rw [List.take_take, Nat.min_comm]
          · rw [List.append_assoc, List.take_append_drop]
    · rw [ends] at h
      cases h
    · rw [fault] at h
      cases h
  · rintro ⟨large, headers, body, announces, rfl, rfl, rfl⟩
    rw [List.append_assoc, run_announced announces, behind_eq, large, if_pos (by rw [List.length_append]; omega)]
    have head : (body ++ rest).take (min body.length Message.headSize) = body.take Message.headSize := by
      rw [Nat.min_comm, ← List.take_take, List.take_left]
    simp [head, tooLarge]

end Left

/-- A frame is read if and only if it is there: the first frame of a stream that has ended has this
body if and only if the stream begins with a block that announces its length, which is not beyond
the limit, and the body, and the rest is what is left. The stream has come to its end if and only if
nothing is left but blanks, no separator among them, and at most one more than a line may have. A
body is too large if and only if a block announces its length, which is beyond the limit, and all of
it is there; it is passed over. In all other cases the connection is broken. -/
theorem run_iff_grammar (limit : Number) (lineLimit : Nat) (input : Octets) :
    let first := run limit false .start (left lineLimit input)
    (∀ body rest, first = .done (.frame body) (left lineLimit rest) ↔
      limit.lt (.int body.length) = false ∧
        ∃ headers, Announces lineLimit headers body.length ∧ input = block headers ++ body ++ rest) ∧
    (first = .done .finished (left lineLimit []) ↔
      input.length ≤ lineLimit + 1 ∧ (∀ b ∈ input, Text.isBlankOctet b = true) ∧ ¬ separator <:+: input) ∧
    (∀ (n : Nat) id rest, first = .done (.fault (.messageTooLarge n limit id)) (left lineLimit rest) ↔
      limit.lt (.int n) = true ∧ ∃ headers body, Announces lineLimit headers n ∧ body.length = n ∧
        id = Message.peekId? (body.take Message.headSize) ∧ input = block headers ++ body ++ rest) ∧
    ((∃ body rest, first = .done (.frame body) (left lineLimit rest)) ∨
      first = .done .finished (left lineLimit []) ∨
      (∃ (n : Nat) (id : Option RequestId) (rest : Octets),
        first = .done (.fault (.messageTooLarge n limit id)) (left lineLimit rest)) ∨
      ∃ message s, first = .done (.fault (.connection message)) s) := by
  refine ⟨fun body rest => run_frame_iff, run_finished_iff, fun n id rest => run_tooLarge_iff, ?_⟩
  rcases start_cases limit lineLimit input with ⟨headers, n, tail, announces, rfl⟩ | ⟨ends, _⟩ | fault
  · rw [run_announced announces, behind_eq]
    split
    · split
      · exact .inr (.inr (.inl ⟨n, _, _, rfl⟩))
      · exact .inl ⟨_, _, rfl⟩
    · exact .inr (.inr (.inr ⟨_, _, rfl⟩))
  · exact .inr (.inl ends)
  · exact .inr (.inr (.inr fault))

end LspClient.Frame
