import Covenant.Source.Reader

/-!
# Readers of texts

The source that delivers a text gives its characters one after the other, and
then the end of the input.
-/

namespace Covenant

theorem Utf8.following?_ofNat
    {n : Nat}
    (isByte : n < 256) :
    Utf8.following? (UInt8.ofNat n) =
      if n < 0x80 then some 0
      else if n < 0xC0 then none
      else if n < 0xE0 then some 1
      else if n < 0xF0 then some 2
      else if n < 0xF8 then some 3
      else none := by
  simp only [Utf8.following?, UInt8.toNat_ofNat', Nat.mod_eq_of_lt isByte]

namespace Reader

/-- A complete sequence is read as its character, whatever comes behind it. -/
theorem charactersFrom_utf8EncodeChar
    (c : Char)
    (rest : List ByteRead) :
    charactersFrom none ((String.utf8EncodeChar c).map .byte ++ rest) =
      .char c :: charactersFrom none rest := by
  have decoded := Utf8.char?_utf8EncodeChar c
  have bound : c.val.toNat < 0x110000 := by
    rcases c.valid with small | ⟨_, small⟩ <;> omega
  revert decoded
  simp only [String.utf8EncodeChar]
  generalize c.val.toNat = v at bound ⊢
  split
  · intro decoded
    simp only [List.map_cons, List.map_nil, List.cons_append, List.nil_append, charactersFrom]
    rw [Utf8.following?_ofNat (by omega), if_pos (by omega)]
    simp only [CharRead.ofSequence, decoded]
  · split
    · intro decoded
      simp only [List.map_cons, List.map_nil, List.cons_append, List.nil_append, charactersFrom]
      rw [Utf8.following?_ofNat (by omega), if_neg (by omega), if_neg (by omega),
        if_pos (by omega)]
      simp only [CharRead.ofSequence, decoded]
    · split
      · intro decoded
        simp only [List.map_cons, List.map_nil, List.cons_append, List.nil_append, charactersFrom]
        rw [Utf8.following?_ofNat (by omega), if_neg (by omega), if_neg (by omega),
          if_neg (by omega), if_pos (by omega)]
        simp only [CharRead.ofSequence, decoded]
      · intro decoded
        simp only [List.map_cons, List.map_nil, List.cons_append, List.nil_append, charactersFrom]
        rw [Utf8.following?_ofNat (by omega), if_neg (by omega), if_neg (by omega),
          if_neg (by omega), if_neg (by omega), if_pos (by omega)]
        simp only [CharRead.ofSequence, decoded]

theorem charactersFrom_encode
    (text : List Char)
    (rest : List ByteRead) :
    charactersFrom none ((text.flatMap String.utf8EncodeChar).map .byte ++ rest) =
      text.map .char ++ charactersFrom none rest := by
  induction text with
  | nil => rfl
  | cons c text ih =>
    rw [List.flatMap_cons, List.map_append, List.append_assoc, charactersFrom_utf8EncodeChar, ih]
    rfl

@[simp] theorem characters_ofText (text : String) :
    (ofText text).characters = text.toList.map .char := by
  have read := charactersFrom_encode text.toList []
  simpa [characters, ofText, Utf8.encode, charactersFrom] using read

end Reader
end Covenant
