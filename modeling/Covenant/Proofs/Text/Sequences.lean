import Covenant.Source.Reader.Text

/-!
# Complete byte sequences

The lead byte of a character announces just the bytes that follow it in the sequence of
the character.  A complete sequence is therefore read as a character only if it is the
sequence of that character.
-/

namespace Covenant
namespace Utf8

/-- The lead byte of a character announces the bytes that follow it. -/
theorem following?_utf8EncodeChar (c : Char) :
    ∃ lead following, String.utf8EncodeChar c = lead :: following ∧
      following? lead = some following.length := by
  have bound : c.val.toNat < 0x110000 := by
    rcases c.valid with small | ⟨_, small⟩ <;> omega
  simp only [String.utf8EncodeChar]
  generalize c.val.toNat = v at bound
  split
  · refine ⟨_, _, rfl, ?_⟩
    rw [following?_ofNat (by omega), if_pos (by omega)]
    rfl
  · split
    · refine ⟨_, _, rfl, ?_⟩
      rw [following?_ofNat (by omega), if_neg (by omega), if_neg (by omega), if_pos (by omega)]
      rfl
    · split
      · refine ⟨_, _, rfl, ?_⟩
        rw [following?_ofNat (by omega), if_neg (by omega), if_neg (by omega),
          if_neg (by omega), if_pos (by omega)]
        rfl
      · refine ⟨_, _, rfl, ?_⟩
        rw [following?_ofNat (by omega), if_neg (by omega), if_neg (by omega),
          if_neg (by omega), if_neg (by omega), if_pos (by omega)]
        rfl

theorem exists_eq_append_of_char?_eq_some
    {sequence : List UInt8}
    {c : Char}
    (decoded : char? sequence = some c) :
    ∃ more, sequence = String.utf8EncodeChar c ++ more := by
  obtain ⟨more, same⟩ := ByteArray.exists_of_utf8DecodeChar?_eq_some decoded
  refine ⟨more.data.toList, ?_⟩
  calc sequence
      = sequence.toByteArray.data.toList := List.toList_data_toByteArray.symm
    _ = String.utf8EncodeChar c ++ more.data.toList := by
        rw [same, ByteArray.data_append, Array.toList_append, List.toList_data_toByteArray]

/-- A sequence with as many bytes as its lead byte announces is read as a character exactly
if it is the sequence of the character. -/
theorem char?_eq_some_iff
    {lead : UInt8}
    {following : List UInt8}
    (complete : following? lead = some following.length)
    {c : Char} :
    char? (lead :: following) = some c ↔ lead :: following = String.utf8EncodeChar c := by
  constructor
  · intro decoded
    obtain ⟨more, same⟩ := exists_eq_append_of_char?_eq_some decoded
    obtain ⟨lead', following', encoded, announced⟩ := following?_utf8EncodeChar c
    rw [encoded, List.cons_append] at same
    obtain ⟨rfl, rfl⟩ := List.cons.inj same
    have noMore : more = [] := by
      have lengths := Option.some.inj (complete.symm.trans announced)
      simpa using lengths
    rw [noMore, List.append_nil, encoded]
  · intro same
    rw [same]
    exact char?_utf8EncodeChar c

end Utf8
end Covenant
