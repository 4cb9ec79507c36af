import Covenant.Text.CharSet

/-!
# Blank characters

The property White_Space of Unicode 17: the ASCII blanks, the next-line control
and the space separators, line and paragraph separators included.
-/

namespace Covenant

/-- Characters with the property White_Space. -/
def CharSet.blanks : CharSet := ⟨[
    (0x9, 0xD), (0x20, 0x20), (0x85, 0x85), (0xA0, 0xA0), (0x1680, 0x1680), (0x2000, 0x200A),
    (0x2028, 0x2029), (0x202F, 0x202F), (0x205F, 0x205F), (0x3000, 0x3000)]⟩

/-- Whether a character has the property White_Space. -/
def isBlank (c : Char) : Bool :=
  CharSet.blanks.contains c

end Covenant
