/-
What the head of a response shows is what the whole response says. The grammar of heads allows a little more
between its words than JSON does, and is over octets where the reader is over characters: the two walk along
the text side by side, member by member, and where the reader gets past a word, it stands behind the same
word as the grammar.
-/
import LspClient.Message
import LspClient.Proofs.Message.Head
import LspClient.Proofs.Json.Strings
import LspClient.Proofs.Json.RoundTrip
import LspClient.Proofs.Text.Utf8

namespace LspClient.Message

open Text (Decodes)
open Json (StringText ClosesText skipBlanks readMembers readValue readString)

/-! ## Between words -/

/-- Characters that the grammar of heads allows between its words. -/
def IsGap (gap : List Char) : Prop :=
  ∀ c ∈ gap, c.toNat = 0x20 ∨ 0x09 ≤ c.toNat ∧ c.toNat ≤ 0x0d

/-- A word with gaps on both sides, and what follows it. -/
def Follows (s : String) (cs rest : List Char) : Prop :=
  ∃ before after, IsGap before ∧ IsGap after ∧ cs = before ++ (s.toList ++ (after ++ rest))

/-- The reader stands in a gap, or behind it. -/
def Ahead (rest cs : List Char) : Prop :=
  ∃ gap, IsGap gap ∧ cs = gap ++ rest

/-- The reader stands before a blank that JSON does not know. -/
def Stuck (cs : List Char) : Prop :=
  ∃ c tail, cs = c :: tail ∧ (c = '\x0b' ∨ c = '\x0c')

section Gaps

variable {gap rest cs : List Char} {s : String} {bs more : Octets}

theorem toNat_of_isBlankOctet {b : UInt8} (h : Text.isBlankOctet b = true) :
    b.toNat = 0x20 ∨ 0x09 ≤ b.toNat ∧ b.toNat ≤ 0x0d := by
  unfold Text.isBlankOctet at h
  simp only [Bool.or_eq_true, Bool.and_eq_true, beq_iff_eq, decide_eq_true_eq, UInt8.le_iff_toNat_le] at h
  rcases h with rfl | h
  · exact .inl rfl
  · exact .inr h

theorem decodes_blanks (blanks : AllBlank bs) (h : Decodes (bs ++ more) cs) :
    ∃ gap rest, cs = gap ++ rest ∧ IsGap gap ∧ Decodes more rest := by
  have ascii : ∀ b ∈ bs, b.toNat < 0x80 := fun b hb => by
    have := toNat_of_isBlankOctet (blanks b hb)
    omega
  obtain ⟨gap, rest, rfl, numbers, h⟩ := h.ascii ascii
  refine ⟨gap, rest, rfl, fun c hc => ?_, h⟩
  have mem : c.toNat ∈ bs.map UInt8.toNat := by
    rw [← numbers]
    exact List.mem_map_of_mem hc
  obtain ⟨b, hb, same⟩ := List.mem_map.1 mem
  rw [← same]
  exact toNat_of_isBlankOctet (blanks b hb)

theorem decodes_word (printable : ∀ c ∈ s.toList, Json.IsPrintable c) (h : Decodes (word s ++ bs) cs) :
    ∃ rest, cs = s.toList ++ rest ∧ Decodes bs rest := by
  have ascii : ∀ c ∈ s.toList, Text.IsAscii c := fun c hc => (printable c hc).2
  have octets : word s = s.toList.map fun c => UInt8.ofNat c.toNat := Text.encode_of_isAscii ascii
  have numbers' : (word s).map UInt8.toNat = s.toList.map Char.toNat := by
    rw [octets, List.map_map]
    exact List.map_congr_left fun c hc => Text.toNat_ofNat_of_isAscii (ascii c hc)
  have low : ∀ b ∈ word s, b.toNat < 0x80 := fun b hb => by
    obtain ⟨c, hc, same⟩ := Text.exists_of_mem_encode ascii hb
    rw [same]
    exact ascii c hc
  obtain ⟨ks, ls, rfl, numbers, h⟩ := h.ascii low
  refine ⟨ls, ?_, h⟩
  rw [numbers'] at numbers
  rw [List.map_injective_iff.2 (fun _ _ => Char.toNat_inj.1) numbers]

/-- A word in octets is one in characters. -/
theorem Token.follows (t : Token s bs more) (printable : ∀ c ∈ s.toList, Json.IsPrintable c) (h : Decodes bs cs) :
    ∃ rest, Follows s cs rest ∧ Decodes more rest := by
  obtain ⟨before, after, hb, ha, rfl⟩ := t
  obtain ⟨gap, _, rfl, hg, worded⟩ := decodes_blanks hb h
  obtain ⟨_, rfl, spaced⟩ := decodes_word printable worded
  obtain ⟨gap', rest, rfl, hg', behind⟩ := decodes_blanks ha spaced
  exact ⟨rest, ⟨gap, gap', hg, hg', rfl⟩, behind⟩

/-- Past a gap the reader stands before what follows it, or is stuck in it. -/
theorem skipBlanks_gap {c : Char} (hgap : IsGap gap) (solid : Json.isBlank c = false) (rest : List Char) :
    skipBlanks (gap ++ c :: rest) = c :: rest ∨ Stuck (skipBlanks (gap ++ c :: rest)) := by
  induction gap with
  | nil => exact .inl (Json.skipBlanks_cons solid)
  | cons d gap ih =>
    obtain ⟨hd, hgap⟩ := List.forall_mem_cons.1 hgap
    rw [List.cons_append, skipBlanks]
    split
    case isTrue => exact ih hgap
    case isFalse solid =>
      refine .inr ⟨d, _, rfl, ?_⟩
      simp only [Json.isBlank, Bool.or_eq_true, decide_eq_true_eq, not_or] at solid
      obtain ⟨⟨⟨space, tab⟩, line⟩, return'⟩ := solid
      have other : ∀ {e : Char}, d ≠ e → d.toNat ≠ e.toNat := fun ne e => ne (Char.toNat_inj.1 e)
      have space : d.toNat ≠ 0x20 := other space
      have tab : d.toNat ≠ 0x09 := other tab
      have line : d.toNat ≠ 0x0a := other line
      have return' : d.toNat ≠ 0x0d := other return'
      have number : d.toNat = 0x0b ∨ d.toNat = 0x0c := by omega
      rcases number with h | h
      · exact .inl (Char.toNat_inj.1 h)
      · exact .inr (Char.toNat_inj.1 h)

theorem Ahead.refl (rest : List Char) : Ahead rest rest :=
  ⟨[], List.forall_mem_nil _, rfl⟩

/-- The next word is what the reader comes to, unless it is stuck on its way. -/
theorem Follows.next {rest' s' : List Char} {c : Char} (f : Follows s rest rest') (ahead : Ahead rest cs)
    (hs : s.toList = c :: s') (solid : Json.isBlank c = false) (free : ¬ Stuck (skipBlanks cs)) :
    ∃ tail, skipBlanks cs = s.toList ++ tail ∧ Ahead rest' tail := by
  obtain ⟨before, after, hb, ha, rfl⟩ := f
  obtain ⟨gap, hg, rfl⟩ := ahead
  have gaps : IsGap (gap ++ before) := List.forall_mem_append.2 ⟨hg, hb⟩
  have joined : gap ++ (before ++ (s.toList ++ (after ++ rest'))) = (gap ++ before) ++
      c :: (s' ++ (after ++ rest')) := by
    rw [hs, List.append_assoc, List.cons_append]
  rw [joined] at free ⊢
  rcases skipBlanks_gap gaps solid (s' ++ (after ++ rest')) with reached | stuck
  · exact ⟨after ++ rest', by rw [reached, hs, List.cons_append], after, ha, rfl⟩
  · exact absurd stuck free

theorem Stuck.ne {c : Char} (h : Stuck cs) (other : c ≠ '\x0b' ∧ c ≠ '\x0c') : cs ≠ c :: rest := by
  obtain ⟨d, tail, rfl, hd⟩ := h
  intro e
  obtain ⟨rfl, _⟩ := List.cons.inj e
  rcases hd with rfl | rfl
  · exact other.1 rfl
  · exact other.2 rfl

end Gaps

/-! ## Members -/

/-- A step that was taken, and those behind it. -/
theorem ok_of_bind {ε α β : Type} {x : Except ε α} {g : α → Except ε β} {r : β} (h : (x >>= g) = .ok r) :
    ∃ a, x = .ok a ∧ g a = .ok r := by
  cases x with
  | error e => cases h
  | ok a => exact ⟨a, rfl, h⟩

section Members

variable {f fuel : Nat} {done members : List (String × Value)} {cs rest tail a b c : List Char} {v : Value}
  {name s : String}

/-- What is read of an object behind a value: the end of the object, or a comma and the other members. -/
def Goes (f : Nat) (done : List (String × Value)) (cs : List Char) (members : List (String × Value))
    (tail : List Char) : Prop :=
  skipBlanks cs = '}' :: tail ∧ members = done.reverse ∨
    ∃ ds, skipBlanks cs = ',' :: ds ∧ readMembers f done (skipBlanks ds) = .ok (members, tail)

/-- What is read of an object from a member on: its name, a colon, its value, and what is behind it. -/
inductive ReadsMember (f : Nat) (done : List (String × Value)) (cs : List Char) (members : List (String × Value))
    (tail : List Char) : Prop
  | intro {name : String} {v : Value} {a b c d : List Char} (quote : cs = '"' :: a)
    (named : readString cs.length 0 [] a = .ok (name, b)) (colon : skipBlanks b = ':' :: c)
    (value : readValue f (skipBlanks c) = .ok (v, d)) (goes : Goes f ((name, v) :: done) d members tail)

theorem readsMember_of_readMembers (h : readMembers fuel done cs = .ok (members, tail)) :
    ∃ f, fuel = f + 1 ∧ ReadsMember f done cs members tail := by
  cases fuel with
  | zero => cases h
  | succ f =>
    refine ⟨f, rfl, ?_⟩
    rw [Json.readMembers.eq_def] at h
    dsimp only at h
    split at h
    case h_2 => cases h
    case h_1 a =>
      obtain ⟨_, named, h⟩ := ok_of_bind h
      split at h
      case h_2 => cases h
      case h_1 c colon =>
        obtain ⟨_, value, h⟩ := ok_of_bind h
        split at h
        case h_1 closed =>
          cases h
          exact .intro rfl named colon value (.inl ⟨closed, rfl⟩)
        case h_2 ds comma => exact .intro rfl named colon value (.inr ⟨ds, comma, h⟩)
        case h_3 => cases h

/-- The members that are read stand behind those that there were. -/
theorem exists_of_readMembers (h : readMembers fuel done cs = .ok (members, tail)) :
    ∃ others, members = done.reverse ++ others := by
  induction fuel generalizing done cs with
  | zero => cases h
  | succ fuel ih =>
    obtain ⟨f, hf, ⟨_, _, _, _, goes⟩⟩ := readsMember_of_readMembers h
    obtain rfl : fuel = f := Nat.succ.inj hf
    rcases goes with ⟨_, rfl⟩ | ⟨_, _, more⟩
    · exact ⟨_, List.reverse_cons⟩
    · obtain ⟨others, rfl⟩ := ih more
      rw [List.reverse_cons, List.append_assoc]
      exact ⟨_, rfl⟩

/-- No member begins, and no value, where the reader is stuck. -/
theorem free_of_readMembers (h : readMembers fuel done cs = .ok (members, tail)) : ¬ Stuck cs := by
  intro stuck
  obtain ⟨_, _, ⟨quote⟩⟩ := readsMember_of_readMembers h
  exact stuck.ne (by decide) quote

theorem free_of_readValue (h : readValue fuel cs = .ok (v, rest)) : ¬ Stuck cs := by
  rintro ⟨c, tail, rfl, hc⟩
  cases fuel with
  | zero => cases h
  | succ fuel =>
    rcases hc with rfl | rfl
    · rw [Json.readValue_scalar (by decide) (by decide) (by decide)] at h
      cases h
    · rw [Json.readValue_scalar (by decide) (by decide) (by decide)] at h
      cases h

theorem free_of_eq {d : Char} (h : cs = d :: rest) (other : d ≠ '\x0b' ∧ d ≠ '\x0c') : ¬ Stuck cs :=
  fun stuck => stuck.ne other h

/-- A name is read up to the quote that closes it. -/
theorem readString_name {opening : Nat} (plain : ∀ c ∈ name.toList, Json.IsPlain c) :
    readString opening 0 [] (name.toList ++ '"' :: rest) = .ok (name, rest) := by
  have text : ∀ cs : List Char, (∀ c ∈ cs, Json.IsPlain c) → StringText (cs ++ ['"']) cs := by
    intro cs plain
    induction cs with
    | nil => exact .quote
    | cons c cs ih =>
      obtain ⟨⟨quote, backslash, control⟩, plain⟩ := List.forall_mem_cons.1 plain
      exact .plain quote backslash control (ih plain)
  have read := (text _ plain).readString opening [] rest
  rw [List.append_assoc] at read
  exact read.trans (by simp)

/-- The reader reads the member that the grammar names, and goes on with its value. -/
theorem exists_of_member (name : String) (h : readMembers fuel done (skipBlanks cs) = .ok (members, tail))
    (ahead : Ahead a cs) (hs : s.toList = '"' :: (name.toList ++ ['"'])) (plain : ∀ c ∈ name.toList, Json.IsPlain c)
    (named : Follows s a b) (colon : Follows ":" b c) :
    ∃ f v ds e, Ahead c ds ∧ readValue f (skipBlanks ds) = .ok (v, e) ∧ Goes f ((name, v) :: done) e members tail := by
  obtain ⟨f, _, ⟨quote, named', colon', value, goes⟩⟩ := readsMember_of_readMembers h
  obtain ⟨ds, begins, ahead⟩ := named.next ahead hs (by decide) (free_of_readMembers h)
  rw [begins, hs, List.cons_append] at quote
  obtain ⟨_, rfl⟩ := List.cons.inj quote
  rw [List.append_assoc, List.singleton_append, readString_name plain] at named'
  cases named'
  obtain ⟨es, begins, ahead⟩ := colon.next ahead rfl (by decide) (free_of_eq colon' (by decide))
  rw [begins] at colon'
  obtain ⟨_, rfl⟩ := List.cons.inj colon'
  exact ⟨f, _, es, _, ahead, value, goes⟩

/-- Behind a value the reader goes on past the comma that the grammar has there. -/
theorem Goes.comma (h : Goes f done cs members tail) (ahead : Ahead a cs) (comma : Follows "," a b) :
    ∃ ds, Ahead b ds ∧ readMembers f done (skipBlanks ds) = .ok (members, tail) := by
  have free : ¬ Stuck (skipBlanks cs) := by
    rcases h with ⟨closed, _⟩ | ⟨_, comma', _⟩
    · exact free_of_eq closed (by decide)
    · exact free_of_eq comma' (by decide)
  obtain ⟨ds, begins, ahead⟩ := comma.next ahead rfl (by decide) free
  rcases h with ⟨closed, _⟩ | ⟨es, comma', more⟩
  · rw [begins] at closed
    cases (List.cons.inj closed).1
  · rw [begins] at comma'
    obtain ⟨_, rfl⟩ := List.cons.inj comma'
    exact ⟨ds, ahead, more⟩

end Members

/-! ## Encodings -/

section Encodings

variable {bs tail more : Octets} {cs : List Char} {x y : UInt8} {s : String}

/-- An octet of ASCII, other than zero. -/
def IsCommon (x : UInt8) : Prop :=
  0 < x.toNat ∧ x.toNat < 0x80

/-- Text that begins with two such octets, or consists of one, is in no other encoding. -/
theorem decodeOctets_of_isCommon (hx : IsCommon x) (hy : ∀ y, tail.head? = some y → y ≠ 0) :
    Json.decodeOctets (x :: tail) = Text.decode true (x :: tail) := by
  have first : ∀ {m : UInt8}, m.toNat = 0 ∨ 0x80 ≤ m.toNat → ∀ marks, (m :: marks).isPrefixOf (x :: tail) = false := by
    intro m outside marks
    have other : m ≠ x := by
      rintro rfl
      unfold IsCommon at hx
      omega
    simp [List.isPrefixOf, other]
  have zero : (x == 0) = false := by
    refine beq_eq_false_iff_ne.2 ?_
    rintro rfl
    exact absurd hx.1 (by decide)
  have second : ∀ y, tail.head? = some y → (y == 0) = false := fun y hy' => beq_eq_false_iff_ne.2 (hy y hy')
  unfold Json.decodeOctets
  rw [first (.inl rfl), first (.inr (by decide)), first (.inr (by decide)), first (.inr (by decide)),
    first (.inr (by decide))]
  simp only [Bool.false_eq_true, if_false]
  unfold Json.decodeUnmarked
  split
  case h_1 heq =>
    cases heq
    rw [zero, second _ rfl]
    rfl
  case h_2 heq =>
    cases heq
    rw [zero, second _ rfl]
    rfl
  case h_3 => rfl

/-- Text begins with an octet of ASCII other than zero. -/
def BeginsCommon (bs : Octets) : Prop :=
  ∃ x tail, bs = x :: tail ∧ IsCommon x

theorem beginsCommon_of_allBlank (h : BeginsCommon bs) {blanks : Octets} (blank : AllBlank blanks) :
    BeginsCommon (blanks ++ bs) := by
  cases blanks with
  | nil => exact h
  | cons b blanks =>
    refine ⟨b, blanks ++ bs, rfl, ?_⟩
    have := toNat_of_isBlankOctet (blank b List.mem_cons_self)
    unfold IsCommon
    omega

theorem Token.beginsCommon (t : Token s bs more) (common : BeginsCommon (word s)) : BeginsCommon bs := by
  obtain ⟨before, after, hb, _, rfl⟩ := t
  obtain ⟨x, tail, e, hx⟩ := common
  exact beginsCommon_of_allBlank ⟨x, tail ++ (after ++ more), by rw [e]; rfl, hx⟩ hb

theorem ne_zero_of_beginsCommon (h : BeginsCommon bs) : ∀ y, bs.head? = some y → y ≠ 0 := by
  rintro y hy rfl
  obtain ⟨x, tail, rfl, hx, _⟩ := h
  cases hy
  exact absurd hx (by decide)

theorem Leads.brace {id rest : Octets} (h : Leads bs id rest) :
    ∃ before inside, AllBlank before ∧ bs = before ++ 0x7b :: inside ∧ BeginsCommon inside := by
  obtain ⟨⟨before, after, hb, ha, rfl⟩, first, name, _⟩ := h
  have version : BeginsCommon (word "\"jsonrpc\"") :=
    ⟨0x22, [0x6a, 0x73, 0x6f, 0x6e, 0x72, 0x70, 0x63, 0x22], by decide, by decide, by decide⟩
  have named : BeginsCommon (word "\"id\"") := ⟨0x22, [0x69, 0x64, 0x22], by decide, by decide, by decide⟩
  have octets : word "\x7b" = [0x7b] := by decide
  rw [octets]
  refine ⟨before, after ++ _, hb, rfl, beginsCommon_of_allBlank ?_ ha⟩
  cases first with
  | absent => exact name.beginsCommon named
  | present marked => exact marked.beginsCommon version

/-- The head of a response is read octet by octet. -/
theorem Leads.decodeOctets {id rest : Octets} (h : Leads bs id rest) : Json.decodeOctets bs = Text.decode true bs := by
  have brace : IsCommon 0x7b := ⟨by decide, by decide⟩
  obtain ⟨before, inside, hb, rfl, common⟩ := h.brace
  cases before with
  | nil => exact decodeOctets_of_isCommon brace (ne_zero_of_beginsCommon common)
  | cons b before =>
    obtain ⟨hb, hbefore⟩ := List.forall_mem_cons.1 hb
    have blank := toNat_of_isBlankOctet hb
    refine decodeOctets_of_isCommon ⟨by omega, by omega⟩ (ne_zero_of_beginsCommon ?_)
    exact beginsCommon_of_allBlank ⟨0x7b, _, rfl, brace⟩ hbefore

end Encodings

/-! ## Ids -/

section Ids

variable {f : Nat} {id bs more : Octets} {cs ks ds rest : List Char} {v v' : Value}

/-- A string of octets is one of characters. The octets behind the first of a wide character are passed over. -/
theorem Closes.drop_high (h : Closes (bs ++ more)) (high : ∀ b ∈ bs, 0x80 ≤ b.toNat) : Closes more := by
  induction bs with
  | nil => exact h
  | cons b bs ih =>
    obtain ⟨hb, high⟩ := List.forall_mem_cons.1 high
    rw [List.cons_append] at h
    generalize bs ++ more = r at h ih
    cases h with
    | quote => exact absurd hb (by decide)
    | plain _ _ h => exact ih h high
    | escape => exact absurd hb (by decide)

theorem closesText_of_closes (d : Decodes bs ks) (h : Closes bs) : ClosesText ks := by
  have both : (Closes bs → ClosesText ks) ∧ (Closes (0x5c :: bs) → ClosesText ('\\' :: ks)) := by
    clear h
    induction d with
    | nil =>
      refine ⟨fun h => (by cases h), fun h => ?_⟩
      cases h with
      | plain _ backslash => exact absurd rfl backslash
    | @cons u bs c cs first rest ih =>
      rcases first.cases with ⟨b, rfl, low, same⟩ | ⟨nonempty, high, wide⟩
      · have eq_of_eq : ∀ {d : Char}, b.toNat = d.toNat → c = d := fun e => Char.toNat_inj.1 (same.trans e)
        have ne_of_ne : ∀ {m : UInt8} {d : Char}, m.toNat = d.toNat → b ≠ m → c ≠ d := by
          rintro m d number ne rfl
          exact ne (UInt8.toNat_inj.1 (same.symm.trans number.symm))
        refine ⟨fun h => ?_, fun h => ?_⟩
        · rw [List.singleton_append] at h
          cases h with
          | quote =>
            obtain rfl : c = '"' := eq_of_eq rfl
            rw [rest.eq_nil]
            exact .quote
          | plain quote backslash h => exact .plain (ne_of_ne rfl quote) (ne_of_ne rfl backslash) (ih.1 h)
          | escape line h =>
            obtain rfl : c = '\\' := eq_of_eq rfl
            exact ih.2 (.escape line h)
        · rw [List.singleton_append] at h
          cases h with
          | plain _ backslash => exact absurd rfl backslash
          | escape _ h => exact .escape (ih.1 h)
      · obtain ⟨b, tails, rfl⟩ := List.exists_cons_of_ne_nil nonempty
        obtain ⟨_, continues⟩ := List.forall_mem_cons.1 high
        refine ⟨fun h => ?_, fun h => ?_⟩
        · refine .plain ?_ ?_ (ih.1 (h.drop_high high))
          · rintro rfl
            exact absurd wide (by decide)
          · rintro rfl
            exact absurd wide (by decide)
        · rw [List.cons_append] at h
          cases h with
          | plain _ backslash => exact absurd rfl backslash
          | escape _ h => exact .escape (ih.1 (h.drop_high continues))
  exact both.1 h

theorem beginsCommon_comma {e : Octets} (comma : Token "," more e) : BeginsCommon more :=
  comma.beginsCommon ⟨0x2c, [], by decide, by decide, by decide⟩

/-- Behind the octets of an id the text goes on by itself. -/
theorem decodes_append (common : BeginsCommon more) (h : Decodes (bs ++ more) cs) :
    ∃ ks ls, cs = ks ++ ls ∧ Decodes bs ks ∧ Decodes more ls := by
  obtain ⟨x, tail, rfl, hx⟩ := common
  exact h.split rfl hx.2

/-- Before a value the reader has passed over every blank. -/
theorem skipBlanks_of_readValue {c : Char} (ahead : Ahead (c :: cs) ds) (solid : Json.isBlank c = false)
    (read : readValue f (skipBlanks ds) = .ok (v, rest)) : skipBlanks ds = c :: cs := by
  obtain ⟨gap, hgap, rfl⟩ := ahead
  rcases skipBlanks_gap hgap solid cs with reached | stuck
  · exact reached
  · exact absurd stuck (free_of_readValue read)

theorem readValue_quote {s : List Char} (h : readValue f ('"' :: s) = .ok (v, rest)) :
    ∃ n t, readString n 0 [] s = .ok (t, rest) ∧ v = .str t := by
  cases f with
  | zero => cases h
  | succ f =>
    rw [readValue] at h
    obtain ⟨_, string, h⟩ := ok_of_bind h
    cases h
    exact ⟨_, _, string, rfl⟩

/-- A string that makes up a whole text. -/
theorem readText_string {us : List Char} (text : StringText ks us) :
    Json.readText ('"' :: ks) = .ok (.str (String.ofList us)) := by
  have string := text.readString ('"' :: ks).length [] []
  rw [List.append_nil, List.reverse_nil, List.nil_append] at string
  unfold Json.readText
  rw [Json.skipBlanks_cons rfl, readValue, string]
  rfl

/-- A string is read as it is by itself. -/
theorem readValue_string (closes : Closes bs) (found : Json.readOctets (0x22 :: bs) = .ok v')
    (h : Decodes (0x22 :: (bs ++ more)) cs) (common : BeginsCommon more) (ahead : Ahead cs ds)
    (read : readValue f (skipBlanks ds) = .ok (v, rest)) : v = v' ∧ Decodes more rest := by
  obtain ⟨c, _, rfl, same, inside⟩ := h.head (by decide)
  obtain rfl : c = '"' := Char.toNat_inj.1 same
  obtain ⟨ks, ls, rfl, hks, hls⟩ := decodes_append common inside
  rw [skipBlanks_of_readValue ahead rfl read] at read
  obtain ⟨n, t, string, rfl⟩ := readValue_quote read
  obtain ⟨ks', us, whole, text, rfl⟩ := Json.stringText_of_readString string
  obtain ⟨closed, controls⟩ := text.closes
  obtain ⟨rfl, rfl⟩ := (closesText_of_closes hks closes).unique closed whole
  refine ⟨?_, hls⟩
  have nonzero : ∀ y, bs.head? = some y → y ≠ 0 := by
    rintro y hy rfl
    obtain ⟨c, hc, zero⟩ := hks.exists_of_mem (List.mem_of_mem_head? hy) (by decide)
    have := controls c hc
    rw [zero] at this
    exact absurd this (by decide)
  have alone : Decodes ([0x22] ++ bs) ('"' :: ks) := .cons (.ascii (by decide) rfl) hks
  unfold Json.readOctets at found
  rw [decodeOctets_of_isCommon ⟨by decide, by decide⟩ nonzero] at found
  have decoded : Text.decode true (0x22 :: bs) = .ok ('"' :: ks) := alone.decode
  rw [decoded] at found
  dsimp only at found
  rw [readText_string text] at found
  cases found
  rfl

/-- Octets that are digits. -/
def AllDigits (bs : Octets) : Prop :=
  ∀ b ∈ bs, isDigitOctet b = true

theorem isDigit_of_isDigitOctet {b : UInt8} {c : Char} (h : isDigitOctet b = true) (same : c.toNat = b.toNat) :
    Json.isDigit c = true := by
  unfold isDigitOctet at h
  simp only [Bool.and_eq_true, decide_eq_true_eq, UInt8.le_iff_toNat_le] at h
  unfold Json.isDigit
  simp only [Bool.and_eq_true, decide_eq_true_eq, Char.le_def, UInt32.le_iff_toNat_le]
  rw [← same] at h
  exact h

theorem isCommon_of_isDigitOctet {b : UInt8} (h : isDigitOctet b = true) : IsCommon b := by
  unfold isDigitOctet at h
  simp only [Bool.and_eq_true, decide_eq_true_eq, UInt8.le_iff_toNat_le] at h
  have h1 : 0x30 ≤ b.toNat := h.1
  have h2 : b.toNat ≤ 0x39 := h.2
  exact ⟨by omega, by omega⟩

theorem ne_zero_of_digits (digits : AllDigits bs) : ∀ y, bs.head? = some y → y ≠ 0 := by
  rintro y hy rfl
  exact absurd (isCommon_of_isDigitOctet (digits 0 (List.mem_of_mem_head? hy))).1 (by decide)

theorem decodes_digits (some : bs ≠ []) (digits : AllDigits bs) (h : Decodes bs ks) :
    ks ≠ [] ∧ ∀ k ∈ ks, Json.isDigit k = true := by
  rw [← List.append_nil bs] at h
  obtain ⟨xs, ls, rfl, numbers, behind⟩ := h.ascii fun b hb => (isCommon_of_isDigitOctet (digits b hb)).2
  rw [behind.eq_nil, List.append_nil]
  refine ⟨fun none => some ?_, fun k hk => ?_⟩
  · rw [none, List.map_nil] at numbers
    exact List.map_eq_nil_iff.1 numbers.symm
  · have mem : k.toNat ∈ bs.map UInt8.toNat := by
      rw [← numbers]
      exact List.mem_map_of_mem hk
    obtain ⟨b, hb, same⟩ := List.mem_map.1 mem
    exact isDigit_of_isDigitOctet (digits b hb) same.symm

/-- The first character of a number begins nothing else. -/
theorem exists_signed {negative : Bool} (nonempty : ds ≠ []) (digits : ∀ d ∈ ds, Json.isDigit d = true) :
    ∃ c tail, Json.signed negative ds = c :: tail ∧ Json.isBlank c = false ∧ c ≠ '"' ∧ c ≠ '[' ∧ c ≠ '\x7b' := by
  cases negative with
  | true => exact ⟨'-', ds, rfl, rfl, by decide, by decide, by decide⟩
  | false =>
    obtain ⟨d, ds, rfl⟩ := List.exists_cons_of_ne_nil nonempty
    have digit := digits d List.mem_cons_self
    refine ⟨d, ds, rfl, Json.isBlank_of_isDigit digit, ?_, ?_, ?_⟩ <;> rintro rfl <;> cases digit

/-- An integer is read as it is by itself. -/
theorem readValue_int {negative : Bool} (nonempty : ds ≠ []) (digits : ∀ d ∈ ds, Json.isDigit d = true)
    (found : Json.readText (Json.signed negative ds) = .ok v') (halts : Json.Halts cs)
    (read : readValue f (Json.signed negative ds ++ cs) = .ok (v, rest)) : v = v' ∧ rest = cs := by
  obtain ⟨c, tail, hc, solid, string, list, object⟩ : ∃ c tail, Json.signed negative ds = c :: tail ∧ _ :=
    exists_signed nonempty digits
  have scalar : ∀ k more, readValue (k + 1) (Json.signed negative ds ++ more) =
      Json.readScalar (Json.signed negative ds ++ more) := by
    intro k more
    rw [hc, List.cons_append]
    exact Json.readValue_scalar string list object
  -- By itself, the number is read to the last of its digits.
  have alone : ∃ r, Json.readScalar (Json.signed negative ds) = .ok (v', r) ∧ skipBlanks r = [] := by
    have first := scalar (2 * (Json.signed negative ds).length + 1) []
    rw [List.append_nil] at first
    unfold Json.readText at found
    rw [hc, Json.skipBlanks_cons solid, ← hc, first] at found
    obtain ⟨⟨w, r⟩, scalar, found⟩ := ok_of_bind found
    dsimp only at found
    split at found
    case h_1 ends =>
      cases found
      exact ⟨r, scalar, ends⟩
    case h_2 => cases found
  obtain ⟨r, alone, ends⟩ := alone
  have numeral := Json.isNumeral_of_readScalar nonempty digits alone ends
  cases f with
  | zero => cases read
  | succ k =>
    rw [scalar, numeral.readScalar halts] at read
    have whole : Json.readScalar (Json.signed negative ds ++ []) = _ := numeral.readScalar Json.halts_nil
    rw [List.append_nil, alone] at whole
    split at read
    case isTrue => cases read
    case isFalse few =>
      rw [if_neg few] at whole
      cases read
      cases whole
      exact ⟨rfl, rfl⟩

/-- No number goes on with a gap or a comma. -/
theorem Follows.halts {e : List Char} (f : Follows "," cs e) : Json.Halts cs := by
  have other : ∀ {c : Char}, c.toNat = 0x20 ∨ 0x09 ≤ c.toNat ∧ c.toNat ≤ 0x0d →
      Json.isDigit c = false ∧ c ≠ '.' ∧ c ≠ 'e' ∧ c ≠ 'E' := by
    intro c hc
    refine ⟨Bool.eq_false_iff.2 fun digit => ?_, ?_, ?_, ?_⟩
    · unfold Json.isDigit at digit
      simp only [Bool.and_eq_true, decide_eq_true_eq, Char.le_def, UInt32.le_iff_toNat_le] at digit
      have low : 0x30 ≤ c.toNat := digit.1
      omega
    all_goals
      rintro rfl
      revert hc
      decide
  obtain ⟨before, after, hb, _, rfl⟩ := f
  intro c hc
  cases before with
  | nil =>
    cases hc
    exact ⟨rfl, by decide, by decide, by decide⟩
  | cons d before =>
    obtain rfl : d = c := Option.some.inj hc
    exact other (hb d List.mem_cons_self)

/-- The value of an id is the one that is found in its octets, and behind it the text goes on. -/
theorem readValue_id {e : Octets} (isId : IsIdText id) (found : Json.readOctets id = .ok v')
    (h : Decodes (id ++ more) cs) (comma : Token "," more e) (ahead : Ahead cs ds)
    (read : readValue f (skipBlanks ds) = .ok (v, rest)) :
    v = v' ∧ Decodes more rest := by
  -- The digits of an integer, behind a sign or none, and the text behind them.
  have integer : ∀ (negative : Bool) {ks ls : List Char}, (ks ≠ [] ∧ ∀ k ∈ ks, Json.isDigit k = true) →
      Text.decode true id = .ok (Json.signed negative ks) → Json.decodeOctets id = Text.decode true id →
      cs = Json.signed negative ks ++ ls → Decodes more ls → v = v' ∧ Decodes more rest := by
    rintro negative ks ls ⟨nonempty, digits⟩ decoded encoding rfl hls
    obtain ⟨_, follows, _⟩ := comma.follows (Json.isPrintable_of_all rfl) hls
    have value : Json.readText (Json.signed negative ks) = .ok v' := by
      unfold Json.readOctets at found
      rw [encoding, decoded] at found
      dsimp only at found
      cases hr : Json.readText (Json.signed negative ks) with
      | error e =>
        rw [hr] at found
        cases found
      | ok w =>
        rw [hr] at found
        cases found
        rfl
    obtain ⟨c, tail, hc, solid, _⟩ : ∃ c tail, Json.signed negative ks = c :: tail ∧ _ := exists_signed nonempty digits
    have reached : skipBlanks ds = Json.signed negative ks ++ ls := by
      rw [hc, List.cons_append] at ahead ⊢
      exact skipBlanks_of_readValue ahead solid read
    rw [reached] at read
    obtain ⟨rfl, rfl⟩ := readValue_int nonempty digits value follows.halts read
    exact ⟨rfl, hls⟩
  cases isId with
  | string closes => exact readValue_string closes found h (beginsCommon_comma comma) ahead read
  | natural some digits =>
    obtain ⟨ks, ls, whole, hks, hls⟩ := decodes_append (beginsCommon_comma comma) h
    obtain ⟨x, tail, rfl⟩ := List.exists_cons_of_ne_nil some
    obtain ⟨first, others⟩ := List.forall_mem_cons.1 digits
    exact integer false (decodes_digits some digits hks) hks.decode
      (decodeOctets_of_isCommon (isCommon_of_isDigitOctet first) (ne_zero_of_digits others)) whole hls
  | @negative tail some digits =>
    obtain ⟨c, _, rfl, same, inside⟩ := h.head (by decide)
    obtain rfl : c = '-' := Char.toNat_inj.1 same
    obtain ⟨ks, ls, rfl, hks, hls⟩ := decodes_append (beginsCommon_comma comma) inside
    have decoded : Decodes ([0x2d] ++ tail) ('-' :: ks) := .cons (.ascii (by decide) rfl) hks
    exact integer true (decodes_digits some digits hks) decoded.decode
      (decodeOctets_of_isCommon ⟨by decide, by decide⟩ (ne_zero_of_digits digits)) rfl hls

end Ids

/-! ## Objects -/

section Objects

variable {fuel f : Nat} {done members : List (String × Value)} {cs ds tail rest : List Char} {v w : Value}
  {a b c id more bs : Octets}

/-- A text that is an object, and its members as they stand there. -/
def ObjectText (cs : List Char) (members : List (String × Value)) : Prop :=
  ∃ inside tail, skipBlanks cs = '\x7b' :: inside ∧ skipBlanks tail = [] ∧
    (members = [] ∧ skipBlanks inside = '}' :: tail ∨
      readMembers (2 * cs.length + 1) [] (skipBlanks inside) = .ok (members, tail))

theorem readScalar_ne_object {data : List (String × Value)} : Json.readScalar cs ≠ .ok (.object data, rest) := by
  intro h
  unfold Json.readScalar at h
  split at h
  case h_1 word =>
    cases h
    unfold Json.readWord at word
    split at word <;> cases word
  case h_2 =>
    split at h
    case h_1 number =>
      subst h
      unfold Json.readNumber at number
      split at number
      obtain ⟨⟨whole, more⟩, _, number⟩ := Option.map_eq_some_iff.1 number
      dsimp only at number
      split at number
      · split at number <;> cases number
      · cases number
    case h_2 => cases h

/-- The texts that are read as objects. -/
theorem readText_eq_object_iff {data : List (String × Value)} :
    Json.readText cs = .ok (.object data) ↔ ∃ members, ObjectText cs members ∧ data = Json.gather members := by
  constructor
  · intro h
    unfold Json.readText at h
    obtain ⟨⟨w, rest⟩, value, h⟩ := ok_of_bind h
    dsimp only at h
    split at h
    case h_2 => cases h
    case h_1 ends =>
    cases h
    rw [Json.readValue.eq_def] at value
    dsimp only at value
    split at value
    case h_1 =>
      obtain ⟨_, _, value⟩ := ok_of_bind value
      cases value
    case h_2 =>
      split at value
      case h_1 => cases value
      case h_2 =>
        obtain ⟨_, _, value⟩ := ok_of_bind value
        cases value
    case h_3 inside object =>
      split at value
      case h_1 closed =>
        cases value
        exact ⟨[], ⟨inside, _, object, ends, .inl ⟨rfl, closed⟩⟩, rfl⟩
      case h_2 =>
        obtain ⟨_, read, value⟩ := ok_of_bind value
        cases value
        exact ⟨_, ⟨inside, _, object, ends, .inr read⟩, rfl⟩
    case h_4 => exact absurd value readScalar_ne_object
  · rintro ⟨members, ⟨inside, tail, object, ends, read⟩, rfl⟩
    have value : readValue (2 * cs.length + 2) (skipBlanks cs) = .ok (.object (Json.gather members), tail) := by
      rw [object, readValue]
      rcases read with ⟨rfl, closed⟩ | read
      · rw [closed]
        rfl
      · split
        case h_1 closed =>
          obtain ⟨_, _, ⟨quote⟩⟩ := readsMember_of_readMembers read
          rw [closed] at quote
          cases (List.cons.inj quote).1
        case h_2 =>
          rw [read]
          rfl
    unfold Json.readText
    rw [value]
    dsimp only [bind, Except.bind]
    rw [ends]
    rfl

theorem exists_of_goes (h : Goes f done cs members tail) : ∃ others, members = done.reverse ++ others := by
  rcases h with ⟨_, rfl⟩ | ⟨_, _, more⟩
  · exact ⟨[], (List.append_nil _).symm⟩
  · exact exists_of_readMembers more

/-- The member that the grammar takes for the id is read as the id. -/
theorem exists_of_id {e : Octets} (h : readMembers fuel done (skipBlanks ds) = .ok (members, tail))
    (ahead : Ahead cs ds) (hcs : Decodes b cs) (named : Token "\"id\"" b c) (colon : Token ":" c (id ++ more))
    (isId : IsIdText id) (comma : Token "," more e) (found : Json.readOctets id = .ok v) :
    ∃ others, members = done.reverse ++ ("id", v) :: others := by
  obtain ⟨_, named, hc⟩ := named.follows (Json.isPrintable_of_all rfl) hcs
  obtain ⟨_, colon, hid⟩ := colon.follows (Json.isPrintable_of_all rfl) hc
  obtain ⟨f, w, es, _, ahead, value, goes⟩ := exists_of_member "id" h ahead rfl (Json.isPlain_of_all rfl) named colon
  obtain ⟨rfl, _⟩ := readValue_id isId found hid comma ahead value
  obtain ⟨others, rfl⟩ := exists_of_goes goes
  exact ⟨others, by simp⟩

/-- The member that the grammar takes for the mark of messages is read as that. -/
theorem exists_of_version (h : readMembers fuel [] (skipBlanks ds) = .ok (members, tail)) (ahead : Ahead cs ds)
    (hcs : Decodes a cs) (first : Version a b) :
    ∃ fuel done cs ds, readMembers fuel done (skipBlanks ds) = .ok (members, tail) ∧ Ahead cs ds ∧ Decodes b cs ∧
      (done = [] ∨ done = [version]) := by
  cases first with
  | absent => exact ⟨fuel, [], cs, ds, h, ahead, hcs, .inl rfl⟩
  | present named colon value comma =>
    obtain ⟨_, named, hb⟩ := named.follows (Json.isPrintable_of_all rfl) hcs
    obtain ⟨_, colon, hc⟩ := colon.follows (Json.isPrintable_of_all rfl) hb
    obtain ⟨_, value, hd⟩ := value.follows (Json.isPrintable_of_all rfl) hc
    obtain ⟨_, comma, he⟩ := comma.follows (Json.isPrintable_of_all rfl) hd
    obtain ⟨f, w, es, _, ahead, read, goes⟩ :=
      exists_of_member "jsonrpc" h ahead rfl (Json.isPlain_of_all rfl) named colon
    obtain ⟨t, begins, ahead⟩ := value.next ahead rfl (by decide) (free_of_readValue read)
    rw [begins] at read
    obtain ⟨n, s, string, rfl⟩ := readValue_quote read
    have two : readString n 0 [] ("2.0".toList ++ '"' :: t) = .ok ("2.0", t) :=
      readString_name (Json.isPlain_of_all rfl)
    cases string.symm.trans two
    obtain ⟨ds, ahead, others⟩ := goes.comma ahead comma
    exact ⟨f, [version], _, ds, others, ahead, he, .inr rfl⟩

/-- An object that leads to a response is not empty. -/
theorem not_closed (first : Version a b) (named : Token "\"id\"" b c) (hcs : Decodes a cs) (ahead : Ahead cs ds)
    (closed : skipBlanks ds = '}' :: tail) : False := by
  have quoted : ∀ {s : String} {s' : List Char} {rest : Octets}, s.toList = '"' :: s' →
    (∀ c ∈ s.toList, Json.IsPrintable c) →
      Token s a rest → False := by
    intro s s' rest hs printable word
    obtain ⟨_, follows, _⟩ := word.follows printable hcs
    obtain ⟨_, begins, _⟩ := follows.next ahead hs (by decide) (free_of_eq closed (by decide))
    rw [closed, hs] at begins
    cases (List.cons.inj begins).1
  cases first with
  | absent => exact quoted rfl (Json.isPrintable_of_all rfl) named
  | present marked => exact quoted rfl (Json.isPrintable_of_all rfl) marked

/-- The members of an object that leads to a response begin with its id, or with the mark of messages and the id. -/
theorem members_of_leads (h : Leads bs id more) (hcs : Decodes bs cs) (found : Json.readOctets id = .ok v)
    (text : ObjectText cs members) :
    ∃ others, members = ("id", v) :: others ∨ members = version :: ("id", v) :: others := by
  obtain ⟨brace, first, named, colon, isId, comma, _⟩ := h
  obtain ⟨inside, tail, object, _, read⟩ := text
  obtain ⟨_, brace, ha⟩ := brace.follows (Json.isPrintable_of_all rfl) hcs
  obtain ⟨rest, begins, ahead⟩ := brace.next (.refl cs) rfl (by decide) (free_of_eq object (by decide))
  rw [begins] at object
  obtain ⟨_, rfl⟩ := List.cons.inj object
  have read : readMembers (2 * cs.length + 1) [] (skipBlanks rest) = .ok (members, tail) := by
    rcases read with ⟨_, closed⟩ | read
    · exact (not_closed first named ha ahead closed).elim
    · exact read
  obtain ⟨fuel, done, _, ds, read, ahead, hb, which⟩ := exists_of_version read ahead ha first
  obtain ⟨others, rfl⟩ := exists_of_id read ahead hb named colon isId comma found
  rcases which with rfl | rfl
  · exact ⟨others, .inl rfl⟩
  · exact ⟨others, .inr rfl⟩

end Objects

/-! ## Messages -/

/-- A message that answers the request with the given id, or none: a response with that id, or a fault of the
protocol that names no other. -/
inductive AnswersOnly (id : RequestId) : Except Fault Message → Prop
  | result (v : Value) : AnswersOnly id (.ok (.result id v))
  | error (members : List (String × Value)) : AnswersOnly id (.ok (.error id members))
  | refused (wording : String) (code : Option Int) {named : Option RequestId} (h : named = none ∨ named = some id) :
    AnswersOnly id (.error (.protocol wording code [] named))

section Messages

variable {data members : List (String × Value)} {v : Value} {id : RequestId} {body : Octets} {cs : List Char} {n : Nat}
  {limit : Number}

theorem answersOnly_invalid (wording : String) : AnswersOnly id (.error (invalidMessage wording none)) :=
  .refused wording _ (.inl rfl)

theorem answersOnly_ofResponse (hv : RequestId.ofValue? v = some id) : AnswersOnly id (ofResponse data v) := by
  have response : responseId? v = some id := by
    cases v <;> first | exact hv | cases hv
  have named : nameable id = some id := by
    cases id with
    | null => cases v <;> cases hv
    | int => rfl
    | str => rfl
  unfold ofResponse
  simp only [response, named]
  split
  · exact .error _
  · exact .refused _ _ (.inr rfl)
  · exact .result _

/-- Members with an id and no method are those of a response with that id, or of no message. -/
theorem answersOnly_ofValue (hid : Value.lookup "id" data = some v) (hv : RequestId.ofValue? v = some id)
    (call : Value.lookup "method" data = none) : AnswersOnly id (ofValue (.object data)) := by
  unfold ofValue
  dsimp only
  split
  case h_1 =>
    simp only [hid, call]
    split
    · exact answersOnly_ofResponse hv
    · exact answersOnly_invalid _
  case h_2 => exact answersOnly_invalid _

theorem lookup_eq_none {name : String} (h : name ∉ data.map Prod.fst) : Value.lookup name data = none := by
  induction data with
  | nil => rfl
  | cons m data ih =>
    rw [List.map_cons, List.mem_cons, not_or] at h
    rw [Value.lookup, if_neg (Ne.symm h.1), ih h.2]

/-- The id that the head of a body shows is the one that the whole body answers, if it is the text of an object
whose members have names of their own, none of them that of a call. -/
theorem parse_of_peekId? (shown : peekId? (body.take n) = some id) (within : limit.lt (.int body.length) = false)
    (decoded : Json.decodeOctets body = .ok cs) (object : ObjectText cs members)
    (distinct : (members.map Prod.fst).Nodup) (unnamed : "method" ∉ members.map Prod.fst) :
    AnswersOnly id (parse (.octets body) limit) := by
  obtain ⟨octets, leading, found⟩ := Option.bind_eq_some_iff.1 shown
  obtain ⟨more, leads⟩ := leadingIdText?_iff.1 leading
  have leads := leads.append (body.drop n)
  rw [List.take_append_drop] at leads
  split at found
  case h_2 => cases found
  case h_1 v read =>
  rw [leads.decodeOctets] at decoded
  obtain ⟨others, begins⟩ := members_of_leads leads (Text.decodes_of_decode decoded) read object
  have hid : Value.lookup "id" members = some v := by
    rcases begins with rfl | rfl <;> rfl
  have value : (Body.octets body).read = .ok (.object members) := by
    unfold Body.read
    dsimp only
    unfold Json.readOctets
    rw [leads.decodeOctets, decoded]
    dsimp only
    rw [readText_eq_object_iff.2 ⟨members, object, (Json.gather_distinct distinct).symm⟩]
    rfl
  unfold parse
  rw [value]
  have size : (Body.octets body).size = body.length := rfl
  rw [size, within]
  exact answersOnly_ofValue hid found (lookup_eq_none unnamed)

end Messages

end LspClient.Message
