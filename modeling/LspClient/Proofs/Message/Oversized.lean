/-
Responses that are too large to be parsed name the request that they answer, as far as their first
characters reach: a formatted response leads to its result or error over its id, and the id that is found
there is read back. A head that ends before the name of the result or error does shows no id.
-/
import LspClient.Proofs.Message.Head
import LspClient.Proofs.Message.RoundTrip

namespace LspClient.Message

open Json (Portable IsPrintable)
open Text (encode_append)

/-- The text of a response up to and with the closing quote of the name of its result or error. -/
def opening (id : RequestId) (name : String) : List Char :=
  "\x7b\"jsonrpc\": \"2.0\", \"id\": ".toList ++ (Json.render id.toValue ++ (", \"".toList ++ (name.toList ++ ['"'])))

/-- A text is refused as too large by every limit that it is beyond, as characters and as octets, with the id
of its request if the head of the text reaches to the closing quote of the given name. -/
def RefusedNaming (id : RequestId) (name : String) (text : String) : Prop :=
  opening id name <+: text.toList ∧ ∀ limit : Number, limit.lt (.int text.length) = true →
    let refused : Except Fault Message :=
      .error (.messageTooLarge text.length limit (if (opening id name).length ≤ headSize then some id else none))
    parse (.text text.toList) limit = refused ∧ parse (.octets (Text.encode text)) limit = refused

/-! ## Words -/

/-- A word with one blank behind it, or none. -/
theorem token_word (s : String) (rest : Octets) : Token s (word s ++ rest) rest :=
  ⟨[], [], List.forall_mem_nil _, List.forall_mem_nil _, rfl⟩

theorem token_word_blank (s : String) (rest : Octets) : Token s (word s ++ 0x20 :: rest) rest :=
  ⟨[], [0x20], List.forall_mem_nil _, List.forall_mem_singleton.2 rfl, rfl⟩

/-! ## Ids -/

section Ids

variable {bs : Octets}

theorem octet_ne {c d : Char} (hc : IsPrintable c) (hd : IsPrintable d) (h : c ≠ d) :
    UInt8.ofNat c.toNat ≠ UInt8.ofNat d.toNat := by
  intro e
  have := congrArg UInt8.toNat e
  rw [Text.toNat_ofNat_of_isAscii hc.2, Text.toNat_ofNat_of_isAscii hd.2] at this
  exact h (Char.toNat_inj.1 this)

/-- Characters that stand for themselves. -/
theorem Closes.append_plain (h : Closes bs) {cs : List Char} (plain : ∀ c ∈ cs, IsPrintable c ∧ c ≠ '"' ∧ c ≠ '\\') :
    Closes (Text.encode (String.ofList cs) ++ bs) := by
  rw [Json.encode_eq_map fun c hc => (plain c hc).1]
  induction cs with
  | nil => exact h
  | cons c cs ih =>
    obtain ⟨⟨printable, quote, backslash⟩, plain⟩ := List.forall_mem_cons.1 plain
    exact .plain (octet_ne printable (by decide) quote) (octet_ne printable (by decide) backslash) (ih plain)

/-- A backslash and the character that it covers. -/
theorem Closes.append_escape (h : Closes bs) {c : Char} (printable : IsPrintable c) :
    Closes (Text.encode (String.ofList ['\\', c]) ++ bs) := by
  have both : ∀ d ∈ ['\\', c], IsPrintable d :=
    List.forall_mem_cons.2 ⟨by decide, List.forall_mem_singleton.2 printable⟩
  rw [Json.encode_eq_map both]
  refine .escape (fun line => ?_) h
  have := congrArg UInt8.toNat line
  rw [Text.toNat_ofNat_of_isAscii printable.2] at this
  have low := printable.1
  rw [this] at low
  exact absurd low (by decide)

theorem digitChar_plain : ∀ k < 16, IsPrintable (Nat.digitChar k) ∧ Nat.digitChar k ≠ '"' ∧ Nat.digitChar k ≠ '\\' := by
  decide

theorem Closes.append_escapeUnit (h : Closes bs) {n : Nat} (unit : n < 0x10000) :
    Closes (Text.encode (String.ofList (Json.escapeUnit n)) ++ bs) := by
  have digits : ∀ c ∈ Text.hex 4 n, IsPrintable c ∧ c ≠ '"' ∧ c ≠ '\\' := by
    rw [Json.hex_four unit]
    simp only [List.forall_mem_cons, List.not_mem_nil, false_implies, implies_true, and_true]
    exact ⟨digitChar_plain _ (by omega), digitChar_plain _ (by omega), digitChar_plain _ (by omega),
      digitChar_plain _ (by omega)⟩
  have parts : Json.escapeUnit n = ['\\', 'u'] ++ Text.hex 4 n := rfl
  rw [parts, encode_append, List.append_assoc]
  exact (h.append_plain digits).append_escape (by decide)

/-- A character is passed over with its escape, whichever it has. -/
theorem Closes.append_escapeChar (h : Closes bs) (c : Char) :
    Closes (Text.encode (String.ofList (Json.escapeChar c)) ++ bs) := by
  have valid : c.toNat < 0xd800 ∨ 0xdfff < c.toNat ∧ c.toNat < 0x110000 := c.valid
  unfold Json.escapeChar
  split
  case isTrue => exact h.append_escape (by decide)
  split
  case isTrue => exact h.append_escape (by decide)
  split
  case isTrue => exact h.append_escape (by decide)
  split
  case isTrue => exact h.append_escape (by decide)
  split
  case isTrue => exact h.append_escape (by decide)
  split
  case isTrue => exact h.append_escape (by decide)
  split
  case isTrue => exact h.append_escape (by decide)
  split
  case isTrue quote backslash _ _ _ _ _ plain =>
    rw [Bool.and_eq_true, decide_eq_true_eq, decide_eq_true_eq] at plain
    exact h.append_plain (List.forall_mem_singleton.2 ⟨⟨plain.1, by omega⟩, quote, backslash⟩)
  split
  case isTrue unit => exact h.append_escapeUnit unit
  case isFalse =>
    dsimp only
    rw [encode_append, List.append_assoc]
    exact (h.append_escapeUnit (by omega)).append_escapeUnit (by omega)

theorem isIdText_string (s : String) : IsIdText (Text.encode (String.ofList (Json.renderString s))) := by
  have closes : ∀ cs : List Char, Closes (Text.encode (String.ofList (cs.flatMap Json.escapeChar)) ++ [0x22]) := by
    intro cs
    induction cs with
    | nil => exact .quote
    | cons c cs ih =>
      rw [List.flatMap_cons, encode_append, List.append_assoc]
      exact ih.append_escapeChar c
  have parts : Json.renderString s = ['"'] ++ (s.toList.flatMap Json.escapeChar ++ ['"']) := rfl
  have quote : Text.encode (String.ofList ['"']) = [0x22] := rfl
  rw [parts, encode_append, encode_append, quote, List.singleton_append]
  exact .string (closes s.toList)

theorem isDigitOctet_of_isDigit {c : Char} (h : Json.isDigit c = true) : isDigitOctet (UInt8.ofNat c.toNat) = true := by
  have printable := Json.isPrintable_of_isDigit h
  unfold Json.isDigit at h
  simp only [Bool.and_eq_true, decide_eq_true_eq, Char.le_def, UInt32.le_iff_toNat_le] at h
  unfold isDigitOctet
  simp only [Bool.and_eq_true, decide_eq_true_eq, UInt8.le_iff_toNat_le, Text.toNat_ofNat_of_isAscii printable.2]
  exact h

theorem isIdText_int (n : Int) : IsIdText (Text.encode (String.ofList (Json.renderInt n))) := by
  have some : (Decimal.natDigits n.natAbs).map (fun c => UInt8.ofNat c.toNat) ≠ [] := by
    rw [Ne, List.map_eq_nil_iff]
    exact Nat.toDigits_ne_nil
  have digits : ∀ b ∈ (Decimal.natDigits n.natAbs).map (fun c => UInt8.ofNat c.toNat), isDigitOctet b = true := by
    intro b hb
    obtain ⟨c, hc, rfl⟩ := List.mem_map.1 hb
    exact isDigitOctet_of_isDigit (Text.isDigit_of_mem_toDigits hc)
  rw [Json.encode_eq_map Json.isPrintable_of_mem_renderInt]
  unfold Json.renderInt
  split
  · exact .negative some digits
  · exact .natural some digits

/-- The text of an id is one that is looked for. -/
theorem isIdText_render {id : RequestId} (h : id ≠ .null) :
    IsIdText (Text.encode (String.ofList (Json.render id.toValue))) := by
  cases id with
  | null => exact absurd rfl h
  | int n =>
    rw [RequestId.toValue, Json.render]
    exact isIdText_int n
  | str s =>
    rw [RequestId.toValue, Json.render]
    exact isIdText_string s

end Ids

/-! ## Openings -/

section Openings

variable {id : RequestId} {name : String} {members : List (String × Value)} {text : String}

theorem of_printObject (h : printObject members = .ok text) :
    text = String.ofList (Json.render (.object members)) ∧ Json.fault? false (.object members) = none := by
  unfold printObject Json.print at h
  cases hf : Json.fault? false (.object members) with
  | some f =>
    rw [hf] at h
    cases h
  | none =>
    rw [hf] at h
    cases h
    exact ⟨rfl, rfl⟩

/-- An id whose text exists is read back from it. -/
theorem portable_id (h : Json.fault? false id.toValue = none) : Portable id.toValue := by
  cases id with
  | null => exact .null
  | str s => exact .str s
  | int n =>
    refine .int (Nat.not_lt.1 fun many => ?_)
    rw [RequestId.toValue, Json.fault?, Json.digitsFault?, if_pos many] at h
    cases h

/-- The names of what a response holds. -/
def IsAnswer (name : String) : Prop :=
  name = "result" ∨ name = "error"

/-- A response begins with its opening. -/
theorem render_response (hname : IsAnswer name) (v : Value) :
    Json.render (.object [version, ("id", id.toValue), (name, v)]) =
      opening id name ++ (':' :: ' ' :: (Json.render v ++ ['\x7d'])) := by
  have marks : Json.renderString "jsonrpc" ++
      ':' :: ' ' :: Json.render (.str "2.0") = "\"jsonrpc\": \"2.0\"".toList := by
    rw [Json.render]
    rfl
  have named : Json.renderString "id" = "\"id\"".toList := rfl
  have answer : Json.renderString name = '"' :: (name.toList ++ ['"']) := by
    rcases hname with rfl | rfl <;> rfl
  have start : "\x7b\"jsonrpc\": \"2.0\", \"id\": ".toList =
      '\x7b' :: ("\"jsonrpc\": \"2.0\"".toList ++ (',' :: ' ' :: ("\"id\"".toList ++ [':', ' ']))) := rfl
  rw [Json.render, version, Json.renderMembers_cons, Json.renderMembers_cons, Json.renderMembers_cons, named, answer]
  unfold opening
  rw [start, ← marks]
  simp

/-- Characters have no shorter text than themselves, so a string that is as long as the head is never shown. -/
theorem length_le_opening (s : String) (name : String) : s.length ≤ (opening (.str s) name).length := by
  have escapes : ∀ cs : List Char, cs.length ≤ (cs.flatMap Json.escapeChar).length := by
    intro cs
    induction cs with
    | nil => exact Nat.le_refl 0
    | cons c cs ih =>
      have one := List.length_pos_iff.2 (Json.escapeChar_ne_nil c)
      rw [List.flatMap_cons, List.length_append, List.length_cons]
      omega
  have := escapes s.toList
  rw [String.length_toList] at this
  unfold opening
  rw [RequestId.toValue, Json.render, Json.renderString, List.length_append, List.length_append, List.length_cons,
    List.length_append]
  omega

/-- The opening of a response leads to its result or error. -/
theorem leads_opening (hid : id ≠ .null) (hname : IsAnswer name) (rest : Octets) :
    Leads (Text.encode (String.ofList (opening id name)) ++ rest) (Text.encode (String.ofList (Json.render id.toValue)))
    rest := by
  have start : Text.encode (String.ofList "\x7b\"jsonrpc\": \"2.0\", \"id\": ".toList) =
      word "\x7b" ++ (word "\"jsonrpc\"" ++ (word ":" ++ 0x20 :: (word "\"2.0\"" ++ (word "," ++ 0x20 ::
        (word "\"id\"" ++ (word ":" ++ [0x20])))))) := by decide
  obtain ⟨answer, finish, member⟩ : ∃ answer : Octets,
      Text.encode (String.ofList (", \"".toList ++ (name.toList ++ ['"']))) = word "," ++ 0x20 :: answer ∧
      Member (answer ++ rest) rest := by
    rcases hname with rfl | rfl
    · exact ⟨word "\"result\"", by decide, .inl rfl⟩
    · exact ⟨word "\"error\"", by decide, .inr rfl⟩
  unfold opening
  rw [encode_append, encode_append, start, finish]
  simp only [List.append_assoc, List.cons_append, List.nil_append]
  exact .intro (token_word _ _)
    (.present (token_word _ _) (token_word_blank _ _) (token_word _ _) (token_word_blank _ _))
    (token_word _ _) (token_word_blank _ _) (isIdText_render hid) (token_word_blank _ _) (.absent _) member

theorem isPrintable_opening (hname : IsAnswer name) : ∀ c ∈ opening id name, IsPrintable c := by
  have start : ∀ c ∈ "\x7b\"jsonrpc\": \"2.0\", \"id\": ".toList, IsPrintable c := Json.isPrintable_of_all rfl
  have finish : ∀ c ∈ ", \"".toList ++ (name.toList ++ ['"']), IsPrintable c := by
    rcases hname with rfl | rfl <;> exact Json.isPrintable_of_all rfl
  exact Json.isPrintable_append start (Json.isPrintable_append (Json.isPrintable_render _) finish)

/-- The head of a response shows its id if the opening ends within it, and none otherwise. -/
theorem peekId?_response (hid : id ≠ .null) (hname : IsAnswer name) (portable : Portable id.toValue)
    (rest : Octets) (n : Nat) :
    peekId? ((Text.encode (String.ofList (opening id name)) ++ rest).take n) =
      if (opening id name).length ≤ n then some id else none := by
  have size : _ = (opening id name).length := Json.length_encode (isPrintable_opening hname)
  split
  case isTrue within =>
    rw [List.take_append, List.take_of_length_le (by omega)]
    generalize rest.take _ = others
    have found := leadingIdText?_iff.2 ⟨others, leads_opening hid hname others⟩
    unfold peekId?
    rw [found, Option.bind_some, Json.readOctets_render portable]
    exact RequestId.ofValue?_toValue id hid
  case isFalse beyond =>
    have beyond : n < (Text.encode (String.ofList (opening id name))).length := by omega
    have leads := leads_opening hid hname []
    rw [List.append_nil, ← List.take_append_drop n (Text.encode _)] at leads
    have hidden := leads.cut fun none => absurd (List.drop_eq_nil_iff.1 none) (Nat.not_le.2 beyond)
    unfold peekId?
    rw [List.take_append_of_le_length (Nat.le_of_lt beyond), hidden]
    rfl

end Openings

/-! ## Responses -/

section Responses

variable {id : RequestId} {name : String} {v : Value} {text : String}

/-- A body beyond the limit is not read. -/
theorem parse_beyond {body : Body} {limit : Number} (h : limit.lt (.int body.size) = true) :
    parse body limit = .error (.messageTooLarge body.size limit body.peek?) := by
  unfold parse
  rw [if_pos h]

theorem refusedNaming_response (hid : id ≠ .null) (hname : IsAnswer name)
    (h : printObject [version, ("id", id.toValue), (name, v)] = .ok text) : RefusedNaming id name text := by
  obtain ⟨rfl, sound⟩ := of_printObject h
  have portable : Portable id.toValue := by
    rw [Json.fault?, version, Json.faultMembers?, Json.faultMembers?] at sound
    exact portable_id (Option.or_eq_none_iff.1 (Option.or_eq_none_iff.1 sound).2).1
  have printable := Json.isPrintable_render (.object [version, ("id", id.toValue), (name, v)])
  have whole : _ = opening id name ++ _ := render_response hname v
  generalize Json.render (.object [version, ("id", id.toValue), (name, v)]) = cs at printable whole
  have shown : peekId? ((Text.encode (String.ofList cs)).take headSize) =
      if (opening id name).length ≤ headSize then some id else none := by
    rw [whole, encode_append]
    exact peekId?_response hid hname portable _ headSize
  refine ⟨?_, fun limit beyond => ?_⟩
  · rw [String.toList_ofList, whole]
    exact List.prefix_append _ _
  · rw [String.length_ofList] at beyond ⊢
    have size : (Body.octets (Text.encode (String.ofList cs))).size = cs.length := Json.length_encode printable
    have octets : (Body.octets (Text.encode (String.ofList cs))).peek? =
        if (opening id name).length ≤ headSize then some id else none := shown
    have text : (Body.text cs).peek? = if (opening id name).length ≤ headSize then some id else none :=
      (congrArg peekId? (Json.encode_take printable headSize)).trans shown
    constructor
    · rw [String.toList_ofList, parse_beyond beyond, text]
      rfl
    · rw [parse_beyond (by rw [size]; exact beyond), size, octets]

end Responses

/-- Responses that are beyond the limit are refused with the id of their request, if the first characters of
the text reach to the end of the name of the result or error. The ids are integers and strings of any size,
and the results, codes, messages and data are whatever has a text. -/
theorem parse_oversized (id : RequestId) (hid : id ≠ .null) :
    (∀ (value : Value) (text : String), formatResult id value = .ok text → RefusedNaming id "result" text) ∧
    (∀ (code : Int) (message : String) (data : Value) (text : String), formatError id code message data = .ok text →
      RefusedNaming id "error" text) :=
  ⟨fun _ _ h => refusedNaming_response hid (.inl rfl) h, fun _ _ _ _ h => refusedNaming_response hid (.inr rfl) h⟩

/-- An id of characters of every kind, which is shown, and one that fills the head, which is not. -/
theorem parse_oversized_string :
    parse (.text "\x7b\"jsonrpc\": \"2.0\", \"id\": \"a\\\"\\\\\\b\\u00e9\\ud83d\\ude00\", \"result\": 1\x7d".toList)
    (.int 50) =
      .error (.messageTooLarge 66 (.int 50) (some (.str "a\"\\\x08é😀"))) ∧
    ∃ text, formatError (.str (String.ofList (List.replicate 1025 'a'))) 7 "m" = .ok text ∧
      parse (.octets (Text.encode text)) (.int 50) = .error (.messageTooLarge text.length (.int 50) none) := by
  constructor
  · have formatted : formatResult (.str "a\"\\\x08é😀") (.int 1) =
        .ok "\x7b\"jsonrpc\": \"2.0\", \"id\": \"a\\\"\\\\\\b\\u00e9\\ud83d\\ude00\", \"result\": 1\x7d" := rfl
    have size : "\x7b\"jsonrpc\": \"2.0\", \"id\": \"a\\\"\\\\\\b\\u00e9\\ud83d\\ude00\", \"result\": 1\x7d".length =
        66 := by
      decide
    have refused := (((parse_oversized (.str "a\"\\\x08é😀") (by decide)).1 (.int 1) _ formatted).2 (.int 50)
      (by rw [size]; decide)).1
    rw [if_pos (by decide), size] at refused
    exact refused
  · have filled : headSize < (opening (.str (String.ofList (List.replicate 1025 'a'))) "error").length :=
      Nat.lt_of_lt_of_le (by rw [String.length_ofList, List.length_replicate]; decide) (length_le_opening _ _)
    generalize String.ofList (List.replicate 1025 'a') = s at filled
    obtain ⟨text, formatted, _⟩ : ReadBack (formatError (.str s) 7 "m") _ :=
      readBack_error (.str s) (.int (by decide)) .null
    obtain ⟨starts, refused⟩ := (parse_oversized (.str s) (by simp)).2 7 "m" .null text formatted
    have size : (50 : Int) < text.length := by
      have := starts.length_le
      rw [String.length_toList] at this
      exact_mod_cast Nat.lt_trans (by decide) (Nat.lt_of_lt_of_le filled this)
    have refused := (refused (.int 50) (by simpa [Number.lt, Number.compare?, Int.compare_eq_lt] using size)).2
    rw [if_neg (Nat.not_le.2 filled)] at refused
    exact ⟨text, formatted, refused⟩

end LspClient.Message
