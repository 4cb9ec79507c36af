import Covenant.Text.Decimal
import Covenant.Wire.Error

/-!
# Reading texts, integers and arrays

The parts of a document that hold no further nodes.  An integer is accepted only
in its decimal text, and some places hold only integers of a certain range.
-/

namespace Covenant
namespace Json

/-- The text of a string. -/
def readText (context : String) : Json → Decoded String
  | string text => .ok text
  | found => .error (.unexpected context "a string" found)

/-- The items of an array. -/
def readArray (context : String) : Json → Decoded (List Json)
  | array items => .ok items
  | found => .error (.unexpected context "an array" found)

/-- The items of an array of two. -/
def readPair (context : String) : Json → Decoded (Json × Json)
  | array [first, second] => .ok (first, second)
  | found => .error (.unexpected context "a two-element array" found)

/-- The integer that a number is written as. -/
def readInteger (context : String) : Json → Decoded Int
  | number literal =>
    match Decimal.toInt? literal with
    | some n => .ok n
    | none => .error (.invalidInteger literal)
  | found => .error (.unexpected context "an integer" found)

/-- An integer that is not negative. -/
def readNatural (context : String) (document : Json) : Decoded Nat := do
  match ← readInteger context document with
  | .ofNat n => .ok n
  | .negSucc _ => .error (.outOfRange context document.describe)

/-- An integer that fits into 64 bits without a sign. -/
def readUnsigned (context : String) (document : Json) : Decoded UInt64 := do
  let n ← readInteger context document
  if 0 ≤ n ∧ n < (UInt64.size : Nat) then .ok (UInt64.ofNat n.toNat)
  else .error (.outOfRange context (Decimal.ofInt n))

/-- An integer that fits into 64 bits with a sign. -/
def readTime (context : String) (document : Json) : Decoded Int64 := do
  let n ← readInteger context document
  if Int64.minValue.toInt ≤ n ∧ n ≤ Int64.maxValue.toInt then .ok (Int64.ofInt n)
  else .error (.outOfRange context (Decimal.ofInt n))

/-- The value of a key that an object has to have. -/
def Members.read (variant key : String) (members : Members) : Decoded Json :=
  match members.lookup key with
  | some value => .ok value
  | none => .error (.missingField variant key)

/-- The first key of an object that is not among the given ones. -/
def Members.extraKey? (allowed : List String) (members : Members) : Option String :=
  (keys members).find? fun key => !allowed.contains key

end Json
end Covenant
