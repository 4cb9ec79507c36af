/-!
# Characters as byte sequences

In UTF-8 a character takes one to four bytes, and its lead byte announces how
many.  The bytes that are announced belong together even when they turn out not
to form a character.
-/

namespace Covenant
namespace Utf8

/-- How many bytes follow a lead byte in its sequence; `none` for a byte that
cannot begin a sequence. -/
def following? (lead : UInt8) : Option Nat :=
  if lead.toNat < 0x80 then some 0
  else if lead.toNat < 0xC0 then none
  else if lead.toNat < 0xE0 then some 1
  else if lead.toNat < 0xF0 then some 2
  else if lead.toNat < 0xF8 then some 3
  else none

/-- The character that a complete sequence encodes; `none` if it encodes none,
as for overlong forms, surrogates and numbers beyond the last code point. -/
def char? (sequence : List UInt8) : Option Char :=
  sequence.toByteArray.utf8DecodeChar? 0

/-- The bytes of a text, character by character. -/
def encode (text : String) : List UInt8 :=
  text.toList.flatMap String.utf8EncodeChar

theorem char?_utf8EncodeChar (c : Char) : char? (String.utf8EncodeChar c) = some c := by
  have decoded := ByteArray.utf8DecodeChar?_utf8EncodeChar_append (b := ByteArray.empty) (c := c)
  rwa [ByteArray.append_empty] at decoded

end Utf8
end Covenant
