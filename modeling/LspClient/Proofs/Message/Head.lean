/-
The heads of responses. A text leads to a response if it has an opening brace, the member that marks
messages or not, an id that is an integer or a string, that member or not, and the name of a result or an
error. The grammar is a relation between the text, the id and what stands behind the name (`Leads`): ids
are found exactly where it gives them, and what stands behind the name makes no difference to them.
-/
import LspClient.Message.Peek
import Mathlib.Data.List.DropRight

namespace LspClient.Message

/-! ## The grammar -/

/-- Blanks, or nothing. -/
def AllBlank (bs : Octets) : Prop :=
  ∀ b ∈ bs, Text.isBlankOctet b = true

/-- A word with blanks on both sides, and what follows it. -/
def Token (s : String) (bs rest : Octets) : Prop :=
  ∃ before after, AllBlank before ∧ AllBlank after ∧ bs = before ++ (word s ++ (after ++ rest))

/-- The member that marks a message and the comma behind it, or nothing, and what follows. -/
inductive Version : Octets → Octets → Prop
  | absent (bs : Octets) : Version bs bs
  | present {bs a b c rest : Octets} (name : Token "\"jsonrpc\"" bs a) (colon : Token ":" a b)
    (value : Token "\"2.0\"" b c) (comma : Token "," c rest) : Version bs rest

/-- A string behind its opening quote, up to and with the closing one. -/
inductive Closes : Octets → Prop
  | quote : Closes [0x22]
  | plain {b : UInt8} {bs : Octets} (quote : b ≠ 0x22) (backslash : b ≠ 0x5c) (rest : Closes bs) : Closes (b :: bs)
  | escape {b : UInt8} {bs : Octets} (line : b ≠ 0x0a) (rest : Closes bs) : Closes (0x5c :: b :: bs)

/-- The octets of an id: a string, or digits with a sign or none. -/
inductive IsIdText : Octets → Prop
  | string {bs : Octets} (closes : Closes bs) : IsIdText (0x22 :: bs)
  | natural {ds : Octets} (some : ds ≠ []) (digits : ∀ b ∈ ds, isDigitOctet b = true) : IsIdText ds
  | negative {ds : Octets} (some : ds ≠ []) (digits : ∀ b ∈ ds, isDigitOctet b = true) : IsIdText (0x2d :: ds)

/-- The name of a result or an error, and what follows it. -/
def Member (bs rest : Octets) : Prop :=
  bs = word "\"result\"" ++ rest ∨ bs = word "\"error\"" ++ rest

/-- A text that leads to a response: the octets of its id, and what stands behind the name of its result
or error. -/
inductive Leads : Octets → Octets → Octets → Prop
  | intro {bs a b c d e f id rest : Octets} (brace : Token "\x7b" bs a) (first : Version a b)
    (name : Token "\"id\"" b c) (colon : Token ":" c (id ++ d)) (isId : IsIdText id) (comma : Token "," d e)
    (second : Version e f) (member : Member f rest) : Leads bs id rest

/-- The octets of the id of a response, and what stands behind the name of its result or error. -/
def leading? (bs : Octets) : Option (Octets × Octets) := do
  let bs ← token? "\x7b" bs
  let bs ← token? "\"id\"" (skipVersion bs)
  let bs ← token? ":" bs
  let (id, bs) ← idText? bs
  let bs ← token? "," bs
  let bs := skipVersion bs
  let rest ← (after? (word "\"result\"") bs).or (after? (word "\"error\"") bs)
  return (id, rest)

theorem leadingIdText?_eq (bs : Octets) : leadingIdText? bs = (leading? bs).map Prod.fst := by
  unfold leadingIdText? leading?
  simp only [Option.map_bind, Option.bind_eq_bind, Function.comp_def]
  rfl

/-! ## Words and blanks -/

section Tokens

variable {s : String} {bs rest more : Octets}

theorem after?_eq_some {ps : Octets} : after? ps bs = some rest ↔ bs = ps ++ rest := by
  induction ps generalizing bs with
  | nil =>
    rw [after?, Option.some.injEq]
    exact Iff.rfl
  | cons p ps ih =>
    cases bs with
    | nil => simp [after?]
    | cons b bs =>
      rw [after?]
      by_cases h : p = b
      · rw [if_pos h, ih, h]
        simp
      · rw [if_neg h]
        simp [Ne.symm h]

theorem allBlank_takeWhile (bs : Octets) : AllBlank (bs.takeWhile Text.isBlankOctet) :=
  fun b hb => List.all_eq_true.1 List.all_takeWhile b hb

/-- Blanks are passed over up to something else. -/
theorem skipBlankOctets_append {blanks : Octets} (h : AllBlank blanks) (rest : Octets) :
    skipBlankOctets (blanks ++ rest) = skipBlankOctets rest :=
  List.dropWhile_append_of_pos h

theorem skipBlankOctets_skip (bs : Octets) : skipBlankOctets (skipBlankOctets bs) = skipBlankOctets bs :=
  List.dropWhile_idempotent _ _

theorem token?_skip (s : String) (bs : Octets) : token? s (skipBlankOctets bs) = token? s bs := by
  unfold token?
  rw [skipBlankOctets_skip]

theorem token_of_token? (h : token? s bs = some rest) : Token s bs rest := by
  obtain ⟨tail, ht, rfl⟩ := Option.map_eq_some_iff.1 h
  refine ⟨bs.takeWhile Text.isBlankOctet, tail.takeWhile Text.isBlankOctet, allBlank_takeWhile bs,
    allBlank_takeWhile tail, ?_⟩
  have whole : bs.takeWhile Text.isBlankOctet ++ skipBlankOctets bs = bs := List.takeWhile_append_dropWhile
  have tail : tail.takeWhile Text.isBlankOctet ++ skipBlankOctets tail = tail := List.takeWhile_append_dropWhile
  rw [tail, ← after?_eq_some.1 ht, whole]

/-- The words of the grammar begin with no blank. -/
def IsSolid (s : String) : Prop :=
  Text.isBlankOctet ((word s).headD 0x20) = false

instance (s : String) : Decidable (IsSolid s) :=
  inferInstanceAs (Decidable (_ = _))

theorem IsSolid.skip (h : IsSolid s) (rest : Octets) : skipBlankOctets (word s ++ rest) = word s ++ rest := by
  unfold IsSolid at h
  cases hw : word s with
  | nil =>
    rw [hw] at h
    cases h
  | cons b ws =>
    rw [hw] at h
    exact List.dropWhile_cons_of_neg (by simpa using h)

/-- What follows a word, once the blanks behind it are passed over. -/
theorem Token.token? (h : Token s bs rest) (solid : IsSolid s) : token? s bs = some (skipBlankOctets rest) := by
  obtain ⟨before, after, hb, ha, rfl⟩ := h
  unfold Message.token?
  rw [skipBlankOctets_append hb, solid.skip, after?_eq_some.2 rfl, Option.map_some, skipBlankOctets_append ha]

theorem Token.skip (h : Token s bs rest) (solid : IsSolid s) : ∃ tail, skipBlankOctets bs = word s ++ tail := by
  obtain ⟨before, after, hb, _, rfl⟩ := h
  exact ⟨after ++ rest, by rw [skipBlankOctets_append hb, solid.skip]⟩

theorem Token.append (h : Token s bs rest) (more : Octets) : Token s (bs ++ more) (rest ++ more) := by
  obtain ⟨before, after, hb, ha, rfl⟩ := h
  exact ⟨before, after, hb, ha, by simp only [List.append_assoc]⟩

end Tokens

/-! ## The member that marks messages -/

section Versions

variable {bs rest : Octets}

theorem Version.append (h : Version bs rest) (more : Octets) : Version (bs ++ more) (rest ++ more) := by
  cases h with
  | absent => exact .absent _
  | present name colon value comma =>
    exact .present (name.append more) (colon.append more) (value.append more) (comma.append more)

theorem version_skipVersion (bs : Octets) : Version bs (skipVersion bs) := by
  unfold skipVersion
  cases h : (do
    let bs ← token? "\"jsonrpc\"" bs
    let bs ← token? ":" bs
    let bs ← token? "\"2.0\"" bs
    token? "," bs) with
  | none => exact .absent bs
  | some rest =>
    simp only [Option.bind_eq_bind, Option.bind_eq_some_iff] at h
    obtain ⟨a, name, b, colon, c, value, comma⟩ := h
    exact .present (token_of_token? name) (token_of_token? colon) (token_of_token? value) (token_of_token? comma)

/-- The member is passed over with the blanks behind it, and only once. -/
theorem Version.skipVersion (h : Version bs rest) (once : token? "\"jsonrpc\"" rest = none) :
    skipVersion (skipBlankOctets bs) = skipBlankOctets rest := by
  unfold Message.skipVersion
  cases h with
  | absent =>
    simp only [token?_skip, once]
    rfl
  | present name colon value comma =>
    simp only [token?_skip, name.token? (by decide), colon.token? (by decide), value.token? (by decide),
      comma.token? (by decide), Option.bind_eq_bind, Option.bind_some, Option.getD_some]

/-- The name of an id is no mark of a message. -/
theorem Token.unmarked (h : Token "\"id\"" bs rest) : Message.token? "\"jsonrpc\"" bs = none := by
  obtain ⟨tail, ht⟩ := h.skip (by decide)
  unfold Message.token?
  rw [ht]
  rfl

end Versions

/-! ## Ids -/

section Ids

variable {bs id rest : Octets}

theorem closes_of_stringBody? {escaped : Bool} {s : Octets} (h : stringBody? escaped bs = some (s, rest)) :
    bs = s ++ rest ∧ Closes (if escaped then 0x5c :: s else s) := by
  induction bs generalizing escaped s with
  | nil => cases escaped <;> cases h
  | cons b bs ih =>
    cases escaped with
    | true =>
      rw [stringBody?] at h
      split at h
      case isTrue => cases h
      case isFalse line =>
        obtain ⟨⟨t, r⟩, ht, e⟩ := Option.map_eq_some_iff.1 h
        cases e
        obtain ⟨rfl, closes⟩ := ih ht
        exact ⟨rfl, .escape line closes⟩
    | false =>
      rw [stringBody?] at h
      split at h
      case isTrue quote =>
        cases h
        exact ⟨rfl, by rw [quote]; exact .quote⟩
      case isFalse quote =>
        obtain ⟨⟨t, r⟩, ht, e⟩ := Option.map_eq_some_iff.1 h
        cases e
        obtain ⟨rfl, closes⟩ := ih ht
        refine ⟨rfl, ?_⟩
        by_cases backslash : b = 0x5c
        · subst backslash
          exact closes
        · rw [beq_false_of_ne backslash] at closes
          exact .plain quote backslash closes

theorem Closes.stringBody? (h : Closes bs) (rest : Octets) : stringBody? false (bs ++ rest) = some (bs, rest) := by
  induction h with
  | quote => rfl
  | plain quote backslash _ ih =>
    rw [List.cons_append, Message.stringBody?, if_neg quote, beq_false_of_ne backslash, ih]
    rfl
  | escape line _ ih =>
    rw [List.cons_append, List.cons_append, Message.stringBody?, if_neg (by decide)]
    show Option.map _ (Message.stringBody? true _) = _
    rw [Message.stringBody?, if_neg line, ih]
    rfl

/-- The number is what digits there are, behind a sign or none. -/
theorem isIdText_of_idText? (h : idText? bs = some (id, rest)) : IsIdText id ∧ bs = id ++ rest := by
  have number : ∀ {sign ds number rest : Octets}, (if (ds.takeWhile isDigitOctet).isEmpty = true then none
      else some (sign ++ ds.takeWhile isDigitOctet, ds.dropWhile isDigitOctet)) = some (number, rest) →
      ds.takeWhile isDigitOctet ≠ [] ∧ number = sign ++ ds.takeWhile isDigitOctet ∧ sign ++ ds = number ++ rest := by
    intro sign ds number rest h
    split at h
    case isTrue => cases h
    case isFalse some =>
      cases h
      refine ⟨fun none => some (by rw [none]; rfl), rfl, ?_⟩
      rw [List.append_assoc, List.takeWhile_append_dropWhile]
  have digits : ∀ ds : Octets, ∀ b ∈ ds.takeWhile isDigitOctet, isDigitOctet b = true :=
    fun ds b hb => List.all_eq_true.1 List.all_takeWhile b hb
  unfold idText? at h
  split at h
  case h_1 bs =>
    obtain ⟨⟨s, r⟩, hs, e⟩ := Option.map_eq_some_iff.1 h
    cases e
    obtain ⟨rfl, closes⟩ := closes_of_stringBody? hs
    exact ⟨.string closes, rfl⟩
  case h_2 =>
    split at h
    rename_i sign ds hsign
    split at hsign
    case h_1 =>
      cases hsign
      obtain ⟨some, rfl, whole⟩ := number h
      exact ⟨.negative some (digits _), whole⟩
    case h_2 =>
      cases hsign
      obtain ⟨some, rfl, whole⟩ := number h
      exact ⟨.natural some (digits _), whole⟩

theorem not_isDigitOctet_of_isBlank {b : UInt8} (h : Text.isBlankOctet b = true) : isDigitOctet b = false := by
  unfold Text.isBlankOctet at h
  unfold isDigitOctet
  simp only [Bool.or_eq_true, Bool.and_eq_true, beq_iff_eq, decide_eq_true_eq, UInt8.le_iff_toNat_le] at h
  simp only [Bool.and_eq_false_iff, decide_eq_false_iff_not, UInt8.le_iff_toNat_le, Nat.not_le]
  left
  rcases h with rfl | ⟨_, h⟩
  · decide
  · exact Nat.lt_of_le_of_lt h (by decide)

/-- No digit stands before a comma. -/
theorem Token.not_isDigitOctet (h : Token "," bs rest) : ∀ b, bs.head? = some b → isDigitOctet b = false := by
  obtain ⟨before, after, hb, _, rfl⟩ := h
  intro b h
  cases before with
  | nil =>
    cases h
    decide
  | cons c before =>
    cases h
    exact not_isDigitOctet_of_isBlank (hb b List.mem_cons_self)

theorem takeWhile_digits {ds : Octets} (digits : ∀ b ∈ ds, isDigitOctet b = true)
    (ends : ∀ b, rest.head? = some b → isDigitOctet b = false) :
    (ds ++ rest).takeWhile isDigitOctet = ds ∧ (ds ++ rest).dropWhile isDigitOctet = rest := by
  rw [List.takeWhile_append_of_pos digits, List.dropWhile_append_of_pos digits]
  cases rest with
  | nil => simp
  | cons b rest => simp [ends b rfl]

/-- An id is taken whole. -/
theorem IsIdText.idText? (h : IsIdText id) (ends : ∀ b, rest.head? = some b → isDigitOctet b = false) :
    idText? (id ++ rest) = some (id, rest) := by
  cases h with
  | string closes =>
    rw [List.cons_append, Message.idText?, closes.stringBody?]
    rfl
  | natural some digits =>
    obtain ⟨take, drop⟩ := takeWhile_digits digits ends
    cases id with
    | nil => exact absurd rfl some
    | cons b ds =>
      have digit := digits b List.mem_cons_self
      unfold Message.idText?
      split
      case h_1 heq =>
        obtain ⟨rfl, _⟩ := List.cons.inj heq
        cases digit
      case h_2 =>
        split
        rename_i sign number hsign
        split at hsign
        case h_1 heq =>
          obtain ⟨rfl, _⟩ := List.cons.inj heq
          cases digit
        case h_2 =>
          cases hsign
          simp only [take, drop]
          rfl
  | negative some digits =>
    obtain ⟨take, drop⟩ := takeWhile_digits digits ends
    rw [List.cons_append, Message.idText?.eq_def]
    simp only [take, drop, List.isEmpty_eq_false_iff.2 some]
    rfl

theorem IsIdText.skip (h : IsIdText id) (rest : Octets) : skipBlankOctets (id ++ rest) = id ++ rest := by
  have solid : ∀ {b : UInt8} {bs : Octets}, Text.isBlankOctet b = false → skipBlankOctets (b :: bs) = b :: bs :=
    fun h => List.dropWhile_cons_of_neg (by simp [h])
  cases h with
  | string => exact solid rfl
  | negative => exact solid rfl
  | natural some digits =>
    cases id with
    | nil => exact absurd rfl some
    | cons b ds =>
      refine solid (Bool.eq_false_iff.2 fun blank => ?_)
      have := not_isDigitOctet_of_isBlank blank
      rw [digits b List.mem_cons_self] at this
      cases this

end Ids

/-! ## Heads -/

section Heads

variable {bs id rest : Octets}

theorem Member.skip (h : Member bs rest) : skipBlankOctets bs = bs := by
  rcases h with rfl | rfl
  · exact IsSolid.skip (by decide) rest
  · exact IsSolid.skip (by decide) rest

theorem Member.unmarked (h : Member bs rest) : token? "\"jsonrpc\"" bs = none := by
  unfold Message.token?
  rw [h.skip]
  rcases h with rfl | rfl <;> rfl

theorem Member.append (h : Member bs rest) (more : Octets) : Member (bs ++ more) (rest ++ more) := by
  rcases h with rfl | rfl
  · exact .inl (List.append_assoc ..)
  · exact .inr (List.append_assoc ..)

theorem member_iff :
    (after? (word "\"result\"") bs).or (after? (word "\"error\"") bs) = some rest ↔ Member bs rest := by
  constructor
  · intro h
    rcases Option.or_eq_some_iff.1 h with h | ⟨_, h⟩
    · exact .inl (after?_eq_some.1 h)
    · exact .inr (after?_eq_some.1 h)
  · rintro (rfl | rfl)
    · rw [after?_eq_some.2 rfl]
      rfl
    · rw [after?_eq_some.2 rfl]
      rfl

/-- A text that leads to a response goes on doing so, whatever follows. -/
theorem Leads.append (h : Leads bs id rest) (more : Octets) : Leads (bs ++ more) id (rest ++ more) := by
  obtain ⟨brace, first, name, colon, isId, comma, second, member⟩ := h
  have colon := colon.append more
  rw [List.append_assoc] at colon
  exact ⟨brace.append more, first.append more, name.append more, colon, isId, comma.append more, second.append more,
    member.append more⟩

theorem leads_of_leading? (h : leading? bs = some (id, rest)) : Leads bs id rest := by
  unfold leading? at h
  simp only [Option.bind_eq_bind, Option.bind_eq_some_iff] at h
  obtain ⟨a, brace, c, name, d, colon, ⟨id', tail⟩, hid, e, comma, rest', member, h⟩ := h
  cases h
  obtain ⟨isId, rfl⟩ := isIdText_of_idText? hid
  exact ⟨token_of_token? brace, version_skipVersion a, token_of_token? name, token_of_token? colon, isId,
    token_of_token? comma, version_skipVersion e, member_iff.1 member⟩

/-- Where a text leads to a response, its id is found. -/
theorem Leads.leading? (h : Leads bs id rest) : leading? bs = some (id, rest) := by
  obtain ⟨brace, first, name, colon, isId, comma, second, member⟩ := h
  unfold Message.leading?
  simp only [brace.token? (by decide), first.skipVersion name.unmarked, token?_skip, name.token? (by decide),
    colon.token? (by decide), isId.skip, isId.idText? comma.not_isDigitOctet, comma.token? (by decide),
    second.skipVersion member.unmarked, member.skip, member_iff.2 member, Option.bind_eq_bind, Option.bind_some]
  rfl

theorem leading?_iff : leading? bs = some (id, rest) ↔ Leads bs id rest :=
  ⟨leads_of_leading?, Leads.leading?⟩

/-- The ids that are found are those of texts that lead to a response. -/
theorem leadingIdText?_iff : leadingIdText? bs = some id ↔ ∃ rest, Leads bs id rest := by
  rw [leadingIdText?_eq]
  constructor
  · intro h
    obtain ⟨⟨_, rest⟩, found, rfl⟩ := Option.map_eq_some_iff.1 h
    exact ⟨rest, leading?_iff.1 found⟩
  · rintro ⟨rest, h⟩
    rw [h.leading?]
    rfl

/-- Nothing is found in a part of a text that ends before the name of the result or error does. -/
theorem Leads.cut {head more : Octets} (h : Leads (head ++ more) id []) (ne : more ≠ []) :
    leadingIdText? head = none := by
  rw [Option.eq_none_iff_forall_ne_some]
  intro id' found
  obtain ⟨rest, h'⟩ := leadingIdText?_iff.1 found
  have same := h.leading?.symm.trans (h'.append more).leading?
  simp only [Option.some.injEq, Prod.mk.injEq] at same
  exact ne (List.append_eq_nil_iff.1 same.2.symm).2

end Heads

end LspClient.Message
