/-
JSON text is printable ASCII, whatever value it is the text of. Strings are escaped, and numbers are digits
with a few marks between them.
-/
import LspClient.Proofs.Json.Escape
import LspClient.Proofs.Text.Ascii
import LspClient.Proofs.Text.Integer

namespace LspClient.Json

/-! ## Numbers -/

theorem isPrintable_of_isDigit {c : Char} (h : isDigit c = true) : IsPrintable c := by
  unfold isDigit at h
  simp only [Bool.and_eq_true, decide_eq_true_eq, Char.le_def, UInt32.le_iff_toNat_le] at h
  obtain ⟨h1, h2⟩ := h
  have h1 : 48 ≤ c.toNat := h1
  have h2 : c.toNat ≤ 57 := h2
  exact ⟨by omega, by omega⟩

theorem isPrintable_natDigits (n : Nat) : ∀ c ∈ Decimal.natDigits n, IsPrintable c :=
  fun _ h => isPrintable_of_isDigit (Text.isDigit_of_mem_toDigits h)

theorem isPrintable_of_mem_renderInt {n : Int} : ∀ c ∈ renderInt n, IsPrintable c := by
  unfold renderInt
  split
  · exact List.forall_mem_cons.2 ⟨by decide, isPrintable_natDigits _⟩
  · exact isPrintable_natDigits _

theorem isPrintable_append {cs ds : List Char} (hc : ∀ c ∈ cs, IsPrintable c) (hd : ∀ d ∈ ds, IsPrintable d) :
    ∀ c ∈ cs ++ ds, IsPrintable c :=
  List.forall_mem_append.2 ⟨hc, hd⟩

theorem isPrintable_zeros (n : Nat) : ∀ c ∈ List.replicate n '0', IsPrintable c := by
  intro c h
  rw [List.eq_of_mem_replicate h]
  decide

theorem isPrintable_shortest (x : Float) : ∀ c ∈ (Decimal.shortest x).digits, IsPrintable c := by
  intro c h
  unfold Decimal.shortest Decimal.dropTrailingZeros at h
  rw [List.mem_reverse] at h
  exact isPrintable_natDigits _ c (List.mem_reverse.1 ((List.dropWhile_sublist _).subset h))

section Digits

variable {d : Decimal.Digits}

theorem isPrintable_positional (h : ∀ c ∈ d.digits, IsPrintable c) : ∀ c ∈ Decimal.positional d, IsPrintable c := by
  unfold Decimal.positional
  split
  · exact List.forall_mem_cons.2
      ⟨by decide, List.forall_mem_cons.2 ⟨by decide, isPrintable_append (isPrintable_zeros _) h⟩⟩
  · refine isPrintable_append (isPrintable_append (fun c hc => h c (List.mem_of_mem_take hc)) (isPrintable_zeros _)) ?_
    refine List.forall_mem_cons.2 ⟨by decide, ?_⟩
    split
    · exact isPrintable_of_all rfl
    · exact fun c hc => h c (List.mem_of_mem_drop hc)

theorem isPrintable_scientific (f : Decimal.Notation) (h : ∀ c ∈ d.digits, IsPrintable c) :
    ∀ c ∈ Decimal.scientific f d, IsPrintable c := by
  have tail : ∀ e : Int, ∀ c ∈ 'e' :: (if e < 0 then '-' else '+') ::
      Decimal.padLeft f.exponentDigits (Decimal.natDigits e.natAbs), IsPrintable c := by
    intro e
    refine List.forall_mem_cons.2 ⟨by decide, List.forall_mem_cons.2 ⟨?_, ?_⟩⟩
    · split <;> decide
    · exact isPrintable_append (isPrintable_zeros _) (isPrintable_natDigits _)
  unfold Decimal.scientific
  split
  case h_1 => exact List.forall_mem_cons.2 ⟨by decide, tail _⟩
  case h_2 c hd =>
    rw [hd] at h
    exact List.forall_mem_cons.2 ⟨h c List.mem_cons_self, tail _⟩
  case h_3 c rest _ hd =>
    rw [hd] at h
    obtain ⟨first, others⟩ := List.forall_mem_cons.1 h
    exact List.forall_mem_cons.2 ⟨first, List.forall_mem_cons.2 ⟨by decide, isPrintable_append others (tail _)⟩⟩

end Digits

/-- The text of a double. -/
theorem isPrintable_double (x : Float) : ∀ c ∈ (Decimal.jsonNotation.render x).toList, IsPrintable c := by
  have signed : ∀ {s : String}, (∀ c ∈ s.toList, IsPrintable c) →
      ∀ c ∈ ((if Decimal.isNegative x then "-" else "") ++ s).toList, IsPrintable c := by
    intro s hs
    rw [String.toList_append]
    refine isPrintable_append ?_ hs
    split
    · exact isPrintable_of_all rfl
    · exact isPrintable_of_all rfl
  unfold Decimal.Notation.render
  split
  · exact isPrintable_of_all rfl
  dsimp only
  split
  · refine signed ?_
    exact isPrintable_of_all rfl
  split
  · refine signed ?_
    exact isPrintable_of_all rfl
  · refine signed ?_
    rw [String.toList_ofList]
    split
    · exact isPrintable_positional (isPrintable_shortest x)
    · exact isPrintable_scientific _ (isPrintable_shortest x)

/-! ## Values -/

/-- Nothing, or what follows an item: a comma and the other items. -/
theorem renderItems_cons (v : Value) (items : List Value) :
    renderItems (v :: items) = render v ++ if items = [] then [] else ',' :: ' ' :: renderItems items := by
  cases items <;> simp [renderItems]

theorem renderMembers_cons (k : String) (v : Value) (members : List (String × Value)) :
    renderMembers ((k, v) :: members) = renderString k ++ ':' :: ' ' :: (render v ++
      if members = [] then [] else ',' :: ' ' :: renderMembers members) := by
  cases members <;> simp [renderMembers]

theorem renderEntries_cons (k v : Value) (entries : List (Value × Value)) :
    renderEntries ((k, v) :: entries) = renderString (keyText k) ++ ':' :: ' ' :: (render v ++
      if entries = [] then [] else ',' :: ' ' :: renderEntries entries) := by
  cases entries <;> simp [renderEntries]

theorem isPrintable_around {a b : Char} {cs : List Char} (ha : IsPrintable a) (hb : IsPrintable b)
    (hcs : ∀ c ∈ cs, IsPrintable c) : ∀ c ∈ a :: (cs ++ [b]), IsPrintable c :=
  List.forall_mem_cons.2 ⟨ha, isPrintable_append hcs (by simpa using hb)⟩

/-- What follows an item or a member, if anything does. -/
theorem isPrintable_others {p : Prop} [Decidable p] {cs : List Char} (h : ∀ c ∈ cs, IsPrintable c) :
    ∀ c ∈ if p then [] else ',' :: ' ' :: cs, IsPrintable c := by
  split
  · simp
  · exact List.forall_mem_cons.2 ⟨by decide, List.forall_mem_cons.2 ⟨by decide, h⟩⟩

/-- A value under a key. -/
theorem isPrintable_member {key : String} {cs ds : List Char} (hcs : ∀ c ∈ cs, IsPrintable c)
    (hds : ∀ c ∈ ds, IsPrintable c) : ∀ c ∈ renderString key ++ ':' :: ' ' :: (cs ++ ds), IsPrintable c :=
  isPrintable_append isPrintable_of_mem_renderString
    (List.forall_mem_cons.2 ⟨by decide, List.forall_mem_cons.2 ⟨by decide, isPrintable_append hcs hds⟩⟩)

mutual

/-- The text of a value is printable. -/
theorem isPrintable_render : (v : Value) → ∀ c ∈ render v, IsPrintable c
  | .null => by rw [render]; exact isPrintable_of_all rfl
  | .bool b => by cases b <;> rw [render] <;> exact isPrintable_of_all rfl
  | .int _ => by rw [render]; exact isPrintable_of_mem_renderInt
  | .float x => by rw [render]; exact isPrintable_double x
  | .str _ => by rw [render]; exact isPrintable_of_mem_renderString
  | .list items => by rw [render]; exact isPrintable_around (by decide) (by decide) (isPrintable_renderItems items)
  | .object members => by
    rw [render]
    exact isPrintable_around (by decide) (by decide) (isPrintable_renderMembers members)
  | .map entries => by rw [render]; exact isPrintable_around (by decide) (by decide) (isPrintable_renderEntries entries)
  | .bytes _ => by rw [render]; exact isPrintable_of_mem_renderString
  | .date _ => by rw [render]; exact isPrintable_of_mem_renderString
  | .dateTime _ => by rw [render]; exact isPrintable_of_mem_renderString
  | .set _ => by rw [render]; exact isPrintable_of_mem_renderString

theorem isPrintable_renderItems : (items : List Value) → ∀ c ∈ renderItems items, IsPrintable c
  | [] => by simp [renderItems]
  | v :: items => by
    rw [renderItems_cons]
    exact isPrintable_append (isPrintable_render v) (isPrintable_others (isPrintable_renderItems items))

theorem isPrintable_renderMembers : (members : List (String × Value)) → ∀ c ∈ renderMembers members, IsPrintable c
  | [] => by simp [renderMembers]
  | (_, v) :: members => by
    rw [renderMembers_cons]
    exact isPrintable_member (isPrintable_render v) (isPrintable_others (isPrintable_renderMembers members))

theorem isPrintable_renderEntries : (entries : List (Value × Value)) → ∀ c ∈ renderEntries entries, IsPrintable c
  | [] => by simp [renderEntries]
  | (_, v) :: entries => by
    rw [renderEntries_cons]
    exact isPrintable_member (isPrintable_render v) (isPrintable_others (isPrintable_renderEntries entries))

end

/-! ## Octets -/

section Octets

variable {cs : List Char}

/-- Printable text has one octet for each character. -/
theorem encode_eq_map (h : ∀ c ∈ cs, IsPrintable c) :
    Text.encode (String.ofList cs) = cs.map fun c => UInt8.ofNat c.toNat := by
  have ascii : ∀ c ∈ (String.ofList cs).toList, Text.IsAscii c := by
    rw [String.toList_ofList]
    exact fun c hc => (h c hc).2
  rw [Text.encode_of_isAscii ascii, String.toList_ofList]

theorem length_encode (h : ∀ c ∈ cs, IsPrintable c) : (Text.encode (String.ofList cs)).length = cs.length := by
  rw [encode_eq_map h, List.length_map]

/-- The octets of the first characters are the first octets. -/
theorem encode_take (h : ∀ c ∈ cs, IsPrintable c) (n : Nat) :
    Text.encode (String.ofList (cs.take n)) = (Text.encode (String.ofList cs)).take n := by
  rw [encode_eq_map h, encode_eq_map fun c hc => h c (List.mem_of_mem_take hc), List.map_take]

end Octets

end LspClient.Json
