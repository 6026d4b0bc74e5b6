/-
Values are read back from their JSON text. The reader takes from the front, so each part of a value
is read with whatever stands behind it in the whole: behind a value stands a comma, a closing
bracket or nothing (`Ends`), which is enough to tell where a number ends. The induction is on the
value, with one lemma for the items of a list and one for the members of an object.
-/
import LspClient.Proofs.Json.Numbers
import LspClient.Proofs.Json.Printable

namespace LspClient.Json

/-- The values that JSON text holds and gives back: integers have few enough digits to be read, and
no two members of an object have the same name. -/
inductive Portable : Value → Prop
  | null : Portable .null
  | bool (b : Bool) : Portable (.bool b)
  | int {n : Int} (few : (Decimal.natDigits n.natAbs).length ≤ maxIntegerDigits) : Portable (.int n)
  | str (s : String) : Portable (.str s)
  | list {items : List Value} (all : ∀ v ∈ items, Portable v) : Portable (.list items)
  | object {members : List (String × Value)} (distinct : (members.map Prod.fst).Nodup)
    (all : ∀ m ∈ members, Portable m.2) : Portable (.object members)

/-- What can stand behind a value. -/
def Ends (rest : List Char) : Prop :=
  ∀ c, rest.head? = some c → c = ',' ∨ c = ']' ∨ c = '}'

theorem ends_nil : Ends [] := by
  rintro c h
  cases h

theorem ends_cons {c : Char} {rest : List Char} (h : c = ',' ∨ c = ']' ∨ c = '}') : Ends (c :: rest) := by
  rintro d hd
  cases hd
  exact h

/-! ## Integers -/

section Integers

variable {rest : List Char}

/-- No superfluous zero stands before the digits of a number. -/
theorem exists_head_natDigits {m : Nat} (h : 0 < m) :
    ∃ c cs, Decimal.natDigits m = c :: cs ∧ c ≠ '0' ∧ isDigit c = true := by
  have nonzero : ∀ k < 10, 0 < k → Nat.digitChar k ≠ '0' ∧ isDigit (Nat.digitChar k) = true := by decide
  unfold Decimal.natDigits
  induction m using Nat.strongRecOn with
  | _ m ih =>
    by_cases small : m < 10
    · exact ⟨_, [], Nat.toDigits_of_lt_base small, nonzero m small h⟩
    · obtain ⟨c, cs, hx, hc⟩ := ih (m / 10) (by omega) (by omega)
      refine ⟨c, cs ++ [Nat.digitChar (m % 10)], ?_, hc⟩
      rw [Nat.toDigits_of_base_le (by decide) (by omega), hx]
      rfl

theorem Ends.halts (h : Ends rest) : Halts rest := by
  intro c hc
  rcases h c hc with rfl | rfl | rfl <;> exact ⟨rfl, by decide, by decide, by decide⟩

/-- The digits of a number are read to the last. -/
theorem isNumeral_natDigits (m : Nat) : IsNumeral (Decimal.natDigits m) := by
  refine ⟨Nat.toDigits_ne_nil, fun d hd => Text.isDigit_of_mem_toDigits hd, ?_⟩
  by_cases hm : m = 0
  · subst hm
    exact .inl rfl
  · obtain ⟨c, cs, hx, hc, _⟩ := exists_head_natDigits (Nat.pos_of_ne_zero hm)
    rw [hx]
    exact .inr fun e => hc (Option.some.inj e)

theorem exists_natDigits (m : Nat) : ∃ c cs, Decimal.natDigits m = c :: cs ∧ isDigit c = true := by
  cases m with
  | zero => exact ⟨'0', [], rfl, rfl⟩
  | succ m =>
    obtain ⟨c, cs, hx, _, hd⟩ := exists_head_natDigits (Nat.succ_pos m)
    exact ⟨c, cs, hx, hd⟩

/-- An integer begins with a digit, or with a sign before one. -/
theorem exists_renderInt (n : Int) :
    ∃ c cs, renderInt n = c :: cs ∧ (isDigit c = true ∨ c = '-' ∧ ∃ d ds, cs = d :: ds ∧ isDigit d = true) := by
  obtain ⟨c, cs, hx, hd⟩ := exists_natDigits n.natAbs
  unfold renderInt
  split
  · exact ⟨'-', _, rfl, .inr ⟨rfl, c, cs, hx, hd⟩⟩
  · exact ⟨c, cs, hx, .inl hd⟩

/-- An integer is read back from its text. -/
theorem readScalar_renderInt {n : Int} (few : (Decimal.natDigits n.natAbs).length ≤ maxIntegerDigits) (h : Ends rest) :
    readScalar (renderInt n ++ rest) = .ok (.int n, rest) := by
  have text : renderInt n = signed (decide (n < 0)) (Decimal.natDigits n.natAbs) := by
    unfold renderInt signed
    by_cases neg : n < 0 <;> simp [neg]
  have value : digitsValue (Decimal.natDigits n.natAbs) = n.natAbs := Text.digitsValue_toDigits _
  rw [text, (isNumeral_natDigits n.natAbs).readScalar h.halts, if_neg (Nat.not_lt.2 few), value]
  congr 3
  by_cases neg : n < 0
  · rw [decide_eq_true neg, if_pos rfl]
    omega
  · rw [decide_eq_false neg, if_neg Bool.false_ne_true]
    omega

end Integers

/-! ## Values -/

section Values

variable {v : Value} {rest : List Char} {fuel : Nat}

/-- The text of a value begins with no blank and closes nothing. -/
theorem exists_render (h : Portable v) :
    ∃ c cs, render v = c :: cs ∧ isBlank c = false ∧ c ≠ ']' ∧ c ≠ '}' := by
  cases h with
  | null => exact ⟨'n', _, rfl, by decide, by decide, by decide⟩
  | bool b => cases b <;> exact ⟨_, _, rfl, by decide, by decide, by decide⟩
  | int few =>
    rename_i n
    obtain ⟨c, cs, hx, hc⟩ := exists_renderInt n
    refine ⟨c, cs, by rw [render, hx], ?_⟩
    rcases hc with hc | ⟨rfl, _⟩
    · refine ⟨isBlank_of_isDigit hc, ?_, ?_⟩
      · rintro rfl
        cases hc
      · rintro rfl
        cases hc
    · exact ⟨by decide, by decide, by decide⟩
  | str s => exact ⟨'"', _, by rw [render, renderString], by decide, by decide, by decide⟩
  | list all => exact ⟨'[', _, by rw [render], by decide, by decide, by decide⟩
  | object distinct all => exact ⟨'{', _, by rw [render], by decide, by decide, by decide⟩

/-- A value is read back from its text, whatever ends it. -/
def Reads (v : Value) : Prop :=
  ∀ fuel rest, Ends rest → 2 * (render v).length ≤ fuel → readValue fuel (render v ++ rest) = .ok (v, rest)

theorem readValue_scalar {c : Char} {cs : List Char} (string : c ≠ '"') (list : c ≠ '[') (object : c ≠ '{') :
    readValue (fuel + 1) (c :: cs) = readScalar (c :: cs) := by
  rw [readValue.eq_def]
  simp only
  split
  · rename_i h
    cases h
    exact absurd rfl string
  · rename_i h
    cases h
    exact absurd rfl list
  · rename_i h
    cases h
    exact absurd rfl object
  · rfl

theorem reads_scalar {c : Char} {cs : List Char} (hr : render v = c :: cs) (string : c ≠ '"') (list : c ≠ '[')
    (object : c ≠ '{') (h : ∀ rest, Ends rest → readScalar (c :: (cs ++ rest)) = .ok (v, rest)) : Reads v := by
  intro fuel rest ends hf
  rw [hr] at hf ⊢
  obtain ⟨fuel, rfl⟩ : ∃ k, fuel = k + 1 := by
    rw [List.length_cons] at hf
    exact ⟨fuel - 1, by omega⟩
  rw [List.cons_append, readValue_scalar string list object]
  exact h rest ends

theorem reads_str (s : String) : Reads (.str s) := by
  intro fuel rest _ hf
  have hr : render (.str s) = '"' :: (s.toList.flatMap escapeChar ++ ['"']) := by rw [render, renderString]
  rw [hr] at hf ⊢
  obtain ⟨fuel, rfl⟩ : ∃ k, fuel = k + 1 := by
    rw [List.length_cons] at hf
    exact ⟨fuel - 1, by omega⟩
  rw [List.cons_append, List.append_assoc, List.singleton_append, readValue, readString_escaped]
  simp only [List.reverse_nil, List.nil_append, String.ofList_toList]
  rfl

/-! ## Lists and objects -/

section Steps

variable {name : String} {cs tail : List Char} {items : List Value} {members : List (String × Value)}

theorem readItems_last (h : readValue fuel cs = .ok (v, ']' :: rest)) :
    readItems (fuel + 1) items cs = .ok ((v :: items).reverse, rest) := by
  show (readValue fuel cs >>= _) = _
  rw [h]
  rfl

theorem readItems_next (h : readValue fuel cs = .ok (v, ',' :: rest)) :
    readItems (fuel + 1) items cs = readItems fuel (v :: items) (skipBlanks rest) := by
  show (readValue fuel cs >>= _) = _
  rw [h]
  rfl

theorem readMembers_last (hn : readString (cs.length + 1) 0 [] cs = .ok (name, ':' :: tail))
    (h : readValue fuel (skipBlanks tail) = .ok (v, '}' :: rest)) :
    readMembers (fuel + 1) members ('"' :: cs) = .ok (((name, v) :: members).reverse, rest) := by
  show Except.bind (readString (cs.length + 1) 0 [] cs) _ = _
  rw [hn]
  show (readValue fuel (skipBlanks tail) >>= _) = _
  rw [h]
  rfl

theorem readMembers_next (hn : readString (cs.length + 1) 0 [] cs = .ok (name, ':' :: tail))
    (h : readValue fuel (skipBlanks tail) = .ok (v, ',' :: rest)) :
    readMembers (fuel + 1) members ('"' :: cs) = readMembers fuel ((name, v) :: members) (skipBlanks rest) := by
  show Except.bind (readString (cs.length + 1) 0 [] cs) _ = _
  rw [hn]
  show (readValue fuel (skipBlanks tail) >>= _) = _
  rw [h]
  rfl

end Steps

theorem skipBlanks_render (h : Portable v) (rest : List Char) : skipBlanks (render v ++ rest) = render v ++ rest := by
  obtain ⟨c, cs, hx, hb, _⟩ := exists_render h
  rw [hx]
  exact skipBlanks_cons hb

theorem skipBlanks_blank (rest : List Char) : skipBlanks (' ' :: rest) = skipBlanks rest :=
  rfl

theorem skipBlanks_renderItems {items : List Value} (ne : items ≠ []) (portable : ∀ v ∈ items, Portable v)
    (rest : List Char) :
    skipBlanks (renderItems items ++ rest) = renderItems items ++ rest := by
  cases items with
  | nil => exact absurd rfl ne
  | cons v items =>
    rw [renderItems_cons, List.append_assoc]
    exact skipBlanks_render (portable v List.mem_cons_self) _

theorem exists_renderMembers {members : List (String × Value)} (ne : members ≠ []) :
    ∃ cs, renderMembers members = '"' :: cs := by
  cases members with
  | nil => exact absurd rfl ne
  | cons m members =>
    rw [renderMembers_cons, renderString]
    exact ⟨_, rfl⟩

theorem skipBlanks_renderMembers {members : List (String × Value)} (ne : members ≠ []) (rest : List Char) :
    skipBlanks (renderMembers members ++ rest) = renderMembers members ++ rest := by
  obtain ⟨cs, hx⟩ := exists_renderMembers ne
  rw [hx]
  rfl

/-- Items are read back one after another, up to the closing bracket. -/
theorem readItems_render {items : List Value} (ne : items ≠ []) (portable : ∀ v ∈ items, Portable v)
    (reads : ∀ v ∈ items, Reads v) (fuel : Nat) (done : List Value) (rest : List Char)
    (hf : 2 * (renderItems items).length + 1 ≤ fuel) :
    readItems fuel done (renderItems items ++ ']' :: rest) = .ok (done.reverse ++ items, rest) := by
  induction items generalizing fuel done with
  | nil => exact absurd rfl ne
  | cons v items ih =>
    obtain ⟨_, portable⟩ := List.forall_mem_cons.1 portable
    obtain ⟨rv, reads⟩ := List.forall_mem_cons.1 reads
    obtain ⟨fuel, rfl⟩ : ∃ k, fuel = k + 1 := ⟨fuel - 1, by omega⟩
    rw [renderItems_cons] at hf ⊢
    rw [List.length_append] at hf
    rw [List.append_assoc]
    by_cases hi : items = []
    · subst hi
      rw [if_pos rfl, List.nil_append, readItems_last (rv fuel _ (ends_cons (.inr (.inl rfl))) (by omega))]
      simp
    · rw [if_neg hi] at hf ⊢
      rw [List.length_cons, List.length_cons] at hf
      rw [List.cons_append, List.cons_append, readItems_next (rv fuel _ (ends_cons (.inl rfl)) (by omega)),
        skipBlanks_blank, skipBlanks_renderItems hi portable, ih hi portable reads fuel _ (by omega)]
      simp

/-- Members are read back one after another, up to the closing brace. -/
theorem readMembers_render {members : List (String × Value)} (ne : members ≠ [])
    (portable : ∀ m ∈ members, Portable m.2) (reads : ∀ m ∈ members, Reads m.2) (fuel : Nat)
    (done : List (String × Value)) (rest : List Char) (hf : 2 * (renderMembers members).length + 1 ≤ fuel) :
    readMembers fuel done (renderMembers members ++ '}' :: rest) = .ok (done.reverse ++ members, rest) := by
  induction members generalizing fuel done with
  | nil => exact absurd rfl ne
  | cons m members ih =>
    obtain ⟨k, v⟩ := m
    obtain ⟨pv, portable⟩ := List.forall_mem_cons.1 portable
    obtain ⟨rv, reads⟩ := List.forall_mem_cons.1 reads
    obtain ⟨fuel, rfl⟩ : ∃ n, fuel = n + 1 := ⟨fuel - 1, by omega⟩
    rw [renderMembers_cons, renderString] at hf ⊢
    simp only [List.cons_append, List.append_assoc, List.nil_append, List.length_cons, List.length_append] at hf ⊢
    have name : ∀ opening tail, readString opening 0 [] (k.toList.flatMap escapeChar ++ '"' :: tail) =
        .ok (k, tail) := by
      intro opening tail
      rw [readString_escaped]
      simp
    have value : ∀ tail, Ends tail → 2 * (render v).length ≤ fuel →
        readValue fuel (skipBlanks (' ' :: (render v ++ tail))) = .ok (v, tail) := by
      intro tail ends hf
      rw [skipBlanks_blank, skipBlanks_render pv]
      exact rv fuel tail ends hf
    by_cases hm : members = []
    · subst hm
      rw [if_pos rfl, List.nil_append,
        readMembers_last (name _ _) (value _ (ends_cons (.inr (.inr rfl))) (by omega))]
      simp
    · rw [if_neg hm] at hf ⊢
      rw [List.length_cons, List.length_cons] at hf
      rw [List.cons_append, List.cons_append,
        readMembers_next (name _ _) (value _ (ends_cons (.inl rfl)) (by omega)), skipBlanks_blank,
        skipBlanks_renderMembers hm, ih hm portable reads fuel _ (by omega)]
      simp

theorem reads_list {items : List Value} (portable : ∀ v ∈ items, Portable v) (reads : ∀ v ∈ items, Reads v) :
    Reads (.list items) := by
  intro fuel rest _ hf
  have hr : render (.list items) = '[' :: (renderItems items ++ [']']) := by rw [render]
  rw [hr] at hf ⊢
  rw [List.length_cons, List.length_append, List.length_singleton] at hf
  obtain ⟨fuel, rfl⟩ : ∃ k, fuel = k + 1 := ⟨fuel - 1, by omega⟩
  rw [List.cons_append, List.append_assoc, List.singleton_append, readValue]
  cases items with
  | nil => rfl
  | cons v items =>
    have all := readItems_render (List.cons_ne_nil v items) portable reads fuel [] rest (by omega)
    rw [skipBlanks_renderItems (List.cons_ne_nil v items) portable]
    split
    case h_1 heq =>
      -- The text of the first item closes nothing.
      obtain ⟨c, cs, hx, _, hc, _⟩ := exists_render (portable v List.mem_cons_self)
      rw [renderItems_cons, hx] at heq
      exact absurd (List.cons.inj heq).1 hc
    case h_2 =>
      rw [all]
      rfl

/-! ## Members by name -/

/-- A new name is stored behind the others. -/
theorem store_new {k : String} {v : Value} {members : List (String × Value)} (h : k ∉ members.map Prod.fst) :
    Value.store k v members = members ++ [(k, v)] := by
  induction members with
  | nil => rfl
  | cons m members ih =>
    obtain ⟨k', v'⟩ := m
    simp only [List.map_cons, List.mem_cons, not_or] at h
    rw [Value.store, if_neg (Ne.symm h.1), ih h.2]
    rfl

/-- Members with names of their own are gathered as they stand. -/
theorem gather_distinct {members : List (String × Value)} (h : (members.map Prod.fst).Nodup) :
    gather members = members := by
  have all : ∀ done : List (String × Value), ((done ++ members).map Prod.fst).Nodup →
      members.foldl (fun done m => Value.store m.1 m.2 done) done = done ++ members := by
    clear h
    induction members with
    | nil => simp
    | cons m members ih =>
      obtain ⟨k, v⟩ := m
      intro done h
      have new : k ∉ done.map Prod.fst := by
        rw [List.map_append, List.map_cons, List.nodup_append] at h
        intro hm
        exact h.2.2 _ hm _ List.mem_cons_self rfl
      rw [List.foldl_cons]
      show List.foldl _ (Value.store k v done) members = _
      rw [store_new new, ih _ (by simpa using h)]
      simp
  exact all [] h

theorem reads_object {members : List (String × Value)} (distinct : (members.map Prod.fst).Nodup)
    (portable : ∀ m ∈ members, Portable m.2) (reads : ∀ m ∈ members, Reads m.2) : Reads (.object members) := by
  intro fuel rest _ hf
  have hr : render (.object members) = '{' :: (renderMembers members ++ ['}']) := by rw [render]
  rw [hr] at hf ⊢
  rw [List.length_cons, List.length_append, List.length_singleton] at hf
  obtain ⟨fuel, rfl⟩ : ∃ k, fuel = k + 1 := ⟨fuel - 1, by omega⟩
  rw [List.cons_append, List.append_assoc, List.singleton_append, readValue]
  by_cases hm : members = []
  · subst hm
    rfl
  · have all := readMembers_render hm portable reads fuel [] rest (by omega)
    rw [skipBlanks_renderMembers hm]
    split
    case h_1 heq =>
      obtain ⟨cs, hx⟩ := exists_renderMembers hm
      rw [hx] at heq
      cases (List.cons.inj heq).1
    case h_2 =>
      rw [all]
      show Except.ok (Value.object (gather ([].reverse ++ members)), rest) = _
      rw [List.reverse_nil, List.nil_append, gather_distinct distinct]

/-- Every value that JSON text can hold is read back. -/
theorem Portable.reads {v : Value} (h : Portable v) : Reads v := by
  induction h with
  | null => exact reads_scalar rfl (by decide) (by decide) (by decide) fun _ _ => rfl
  | bool b => cases b <;> exact reads_scalar rfl (by decide) (by decide) (by decide) fun _ _ => rfl
  | @int n few =>
    obtain ⟨c, cs, hx, hc⟩ := exists_renderInt n
    have ne : ∀ {d : Char}, isDigit d = false → d ≠ '-' → c ≠ d := by
      rintro d hd hs rfl
      rcases hc with hc | ⟨hc, _⟩
      · rw [hd] at hc
        cases hc
      · exact hs hc
    refine reads_scalar (by rw [render, hx]) (ne rfl (by decide)) (ne rfl (by decide)) (ne rfl (by decide))
      fun rest ends => ?_
    rw [← List.cons_append, ← hx]
    exact readScalar_renderInt few ends
  | str s => exact reads_str s
  | list all ih => exact reads_list all ih
  | object distinct all ih => exact reads_object distinct all ih

end Values

/-! ## Texts -/

section Texts

variable {v : Value}

theorem readText_render (h : Portable v) : readText (render v) = .ok v := by
  have skip := skipBlanks_render h []
  rw [List.append_nil] at skip
  have read := h.reads (2 * (render v).length + 2) [] ends_nil (by omega)
  rw [List.append_nil] at read
  unfold readText
  rw [skip, read]
  rfl

/-- A value is read back from its characters. -/
theorem readChars_render (h : Portable v) : readChars (render v) = .ok v := by
  have mark : (render v).head? ≠ some '\ufeff' := by
    intro hm
    have := isPrintable_render v '\ufeff' (List.mem_of_mem_head? hm)
    revert this
    decide
  unfold readChars
  rw [if_neg mark, readText_render h]
  rfl

/-! ## Octets -/

theorem decodeFrom_ascii (surrogates : Bool) {cs : List Char} (h : ∀ c ∈ cs, IsPrintable c) (pos : Nat)
    (done : List Char) :
    Text.decodeFrom surrogates pos 0 done (cs.map fun c => UInt8.ofNat c.toNat) = .ok (done.reverse ++ cs) := by
  induction cs generalizing pos done with
  | nil => simp [Text.decodeFrom]
  | cons c cs ih =>
    obtain ⟨hc, h⟩ := List.forall_mem_cons.1 h
    have number := Text.toNat_ofNat_of_isAscii hc.2
    have scan : ∀ rest, Text.scanUtf8 surrogates (UInt8.ofNat c.toNat) rest = .char c 1 := by
      intro rest
      unfold Text.scanUtf8
      simp only [number, if_pos hc.2, Text.charOf_toNat]
    rw [List.map_cons, Text.decodeFrom]
    simp only [scan]
    rw [ih h]
    simp

theorem isPrefixOf_of_not_mem {mark : UInt8} {bs : Octets} (h : mark ∉ bs) (marks : Octets) :
    (mark :: marks).isPrefixOf bs = false := by
  cases bs with
  | nil => rfl
  | cons b bs =>
    have other : mark ≠ b := fun e => h (e ▸ List.mem_cons_self)
    simp [List.isPrefixOf, other]

/-- Octets other than zero are read one by one. -/
theorem decodeUnmarked_of_not_mem {bs : Octets} (h : 0 ∉ bs) : decodeUnmarked bs = Text.decode true bs := by
  have other : ∀ {b : UInt8}, b ∈ bs → (b == 0) = false := fun hb => beq_eq_false_iff_ne.2 fun e => h (e ▸ hb)
  unfold decodeUnmarked
  split
  · rw [other (by simp), other (by simp)]
    rfl
  · rw [other (by simp), other (by simp)]
    rfl
  · rfl

/-- Printable text is taken for what it is: no octet of it marks another encoding. -/
theorem decodeOctets_encode {cs : List Char} (h : ∀ c ∈ cs, IsPrintable c) :
    decodeOctets (Text.encode (String.ofList cs)) = .ok cs := by
  have other : ∀ b : UInt8, b.toNat < 0x20 ∨ 0x80 ≤ b.toNat → b ∉ cs.map fun c => UInt8.ofNat c.toNat := by
    intro b outside hb
    obtain ⟨c, hc, rfl⟩ := List.mem_map.1 hb
    rw [Text.toNat_ofNat_of_isAscii (h c hc).2] at outside
    have := h c hc
    unfold IsPrintable at this
    omega
  have zero := other 0x00 (.inl (by decide))
  have high := other 0xff (.inr (by decide))
  unfold decodeOctets
  rw [encode_eq_map h, isPrefixOf_of_not_mem zero, isPrefixOf_of_not_mem high,
    isPrefixOf_of_not_mem (other 0xfe (.inr (by decide))), isPrefixOf_of_not_mem high,
    isPrefixOf_of_not_mem (other 0xef (.inr (by decide)))]
  exact (decodeUnmarked_of_not_mem zero).trans (decodeFrom_ascii true h 0 [])

/-- A value is read back from the octets of its text. -/
theorem readOctets_render (h : Portable v) : readOctets (Text.encode (String.ofList (render v))) = .ok v := by
  unfold readOctets
  rw [decodeOctets_encode (isPrintable_render v)]
  simp only [readText_render h]
  rfl

/-! ## Printing -/

theorem faultItems?_none {lenient : Bool} {items : List Value} (h : ∀ v ∈ items, fault? lenient v = none) :
    faultItems? lenient items = none := by
  induction items with
  | nil => rfl
  | cons v items ih =>
    obtain ⟨hv, h⟩ := List.forall_mem_cons.1 h
    rw [faultItems?, hv, Option.none_or, ih h]

theorem faultMembers?_none {lenient : Bool} {members : List (String × Value)}
    (h : ∀ m ∈ members, fault? lenient m.2 = none) : faultMembers? lenient members = none := by
  induction members with
  | nil => rfl
  | cons m members ih =>
    obtain ⟨hv, h⟩ := List.forall_mem_cons.1 h
    rw [faultMembers?, hv, Option.none_or, ih h]

theorem fault?_portable {lenient : Bool} (h : Portable v) : fault? lenient v = none := by
  induction h with
  | null => cases lenient <;> rfl
  | bool b => cases lenient <;> rfl
  | int few => exact if_neg (Nat.not_lt.2 few)
  | str s => cases lenient <;> rfl
  | list all ih => exact faultItems?_none ih
  | object distinct all ih => exact faultMembers?_none ih

/-- A value that can be read back has a text. -/
theorem print_portable (h : Portable v) : print v = .ok (String.ofList (render v)) := by
  unfold print
  rw [fault?_portable h]

theorem printLenient_portable (h : Portable v) : printLenient v = .ok (String.ofList (render v)) := by
  unfold printLenient
  rw [fault?_portable h]

/-- The text of a value that can be read back is printable, and gives the value back. -/
theorem printLenient_spec (h : Portable v) :
    ∃ text, printLenient v = .ok text ∧ (∀ c ∈ text.toList, IsPrintable c) ∧ readChars text.toList = .ok v := by
  refine ⟨_, printLenient_portable h, ?_⟩
  rw [String.toList_ofList]
  exact ⟨isPrintable_render v, readChars_render h⟩

end Texts

end LspClient.Json
