/-
ASCII text and its octets: one octet for each character, and back.
-/
import LspClient.Text.Utf8

namespace LspClient.Text

/-- Whether a character is one of the 128 of ASCII. -/
def IsAscii (c : Char) : Prop :=
  c.toNat < 0x80

theorem encode_append (cs ds : List Char) :
    encode (String.ofList (cs ++ ds)) = encode (String.ofList cs) ++ encode (String.ofList ds) := by
  unfold encode
  simp only [String.toList_ofList, List.flatMap_append]

theorem utf8EncodeChar_of_isAscii {c : Char} (h : IsAscii c) :
    String.utf8EncodeChar c = [UInt8.ofNat c.toNat] := by
  have h : c.val.toNat ≤ 0x7f := Nat.le_of_lt_succ h
  unfold String.utf8EncodeChar
  simp only [h, ite_true]
  rfl

/-- The octets of ASCII text, one for each character. -/
theorem encode_of_isAscii {s : String} (h : ∀ c ∈ s.toList, IsAscii c) :
    encode s = s.toList.map fun c => UInt8.ofNat c.toNat := by
  unfold encode
  generalize s.toList = cs at h
  induction cs with
  | nil => rfl
  | cons c cs ih =>
    rw [List.flatMap_cons, ih fun d hd => h d (List.mem_cons_of_mem c hd),
      utf8EncodeChar_of_isAscii (h c List.mem_cons_self)]
    rfl

theorem charOf_toNat (c : Char) : charOf c.toNat = c := by
  have valid : c.toNat.isValidChar := c.valid
  have := Char.ofNat_toNat c
  unfold Char.ofNat at this
  rw [dif_pos valid] at this
  unfold charOf
  rw [dif_pos valid]
  exact this

theorem toNat_ofNat_of_isAscii {c : Char} (h : IsAscii c) : (UInt8.ofNat c.toNat).toNat = c.toNat := by
  unfold IsAscii at h
  rw [UInt8.toNat_ofNat']
  omega

theorem decodeAscii_append (xs ys : Octets) : decodeAscii (xs ++ ys) = decodeAscii xs ++ decodeAscii ys :=
  List.map_append

/-- ASCII text is read back from its octets. -/
theorem decodeAscii_encode {s : String} (h : ∀ c ∈ s.toList, IsAscii c) : decodeAscii (encode s) = s.toList := by
  rw [encode_of_isAscii h]
  unfold decodeAscii
  rw [List.map_map]
  refine (List.map_congr_left fun c hc => ?_).trans (List.map_id _)
  have ha := toNat_ofNat_of_isAscii (h c hc)
  have lt : UInt8.ofNat c.toNat < 0x80 := by
    rw [UInt8.lt_iff_toNat_lt, ha]
    exact h c hc
  simp only [Function.comp_apply, if_pos lt, ha, Char.ofNat_toNat, id]

/-- An octet of ASCII text comes from the character with its number. -/
theorem exists_of_mem_encode {s : String} (h : ∀ c ∈ s.toList, IsAscii c) {b : UInt8} (hb : b ∈ encode s) :
    ∃ c ∈ s.toList, b.toNat = c.toNat := by
  rw [encode_of_isAscii h] at hb
  obtain ⟨c, hc, rfl⟩ := List.mem_map.1 hb
  exact ⟨c, hc, toNat_ofNat_of_isAscii (h c hc)⟩

end LspClient.Text
