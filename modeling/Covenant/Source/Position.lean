/-!
# Positions in a source

A position names a character that has been read by its line and column.  Lines
count from one; the column of a line's first character is one, and column zero
is the place before it.
-/

namespace Covenant

/-- The line and column of a character that has been read. -/
structure Position where
  /-- Number of the line, counted from one. -/
  line : UInt32
  /-- Number of characters read on that line. -/
  column : UInt32
deriving DecidableEq, Inhabited

namespace Position

/-- The position before the first character. -/
def start : Position := ⟨1, 0⟩

/-- The position after one more character: a line feed begins a line, and every
other character is one column. -/
def advance (position : Position) (c : Char) : Position :=
  if c = '\n' then ⟨position.line + 1, 0⟩ else ⟨position.line, position.column + 1⟩

/-- The position after all characters of a text. -/
def advanceOver (position : Position) (text : List Char) : Position :=
  text.foldl advance position

@[simp] theorem advanceOver_nil (position : Position) :
    position.advanceOver [] = position := rfl

@[simp] theorem advanceOver_cons
    (position : Position)
    (c : Char)
    (text : List Char) :
    position.advanceOver (c :: text) = (position.advance c).advanceOver text := rfl

theorem advanceOver_append
    (position : Position)
    (first second : List Char) :
    position.advanceOver (first ++ second) =
      (position.advanceOver first).advanceOver second := by
  simp [advanceOver]

/-- Positions are ordered by line, and on one line by column. -/
instance : Ord Position :=
  ⟨compareLex (compareOn line) (compareOn column)⟩

/-- Line and column with a colon between them. -/
def text (position : Position) : String :=
  position.line.toNat.repr ++ ":" ++ position.column.toNat.repr

end Position
end Covenant
