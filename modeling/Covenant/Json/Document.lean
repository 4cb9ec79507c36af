import Covenant.Json.Basic
import Covenant.Json.Written

/-!
# Reading documents

A text stands for a document if it is written by the rules, every string in it
has a text, and at most `Json.maxHeight` arrays and objects are nested.  Of
members with the same key the last one counts.

A number may also be wrapped: an object whose first key is `Json.numberKey`
stands for the number whose literal is the value of that key.
-/

namespace Covenant
namespace Json

/-- How many arrays and objects a text may nest. -/
def maxHeight : Nat := 127

/-- The key of an object that stands for a number. -/
def numberKey : String := "$serde_json::private::Number"

namespace Written

/-- Whether the members of an object wrap a number. -/
def wrapsNumber : Members → Bool
  | (key, _) :: _ => key = some numberKey
  | [] => false

/-- The number in a wrapper, which holds a literal and nothing else. -/
def wrappedNumber? : Members → Option Written
  | [(_, .string (some text))] => (Numeral.whole? text).map .number
  | _ => none

mutual

/-- Replaces every wrapped number by the number itself. -/
def unwrap? : Written → Option Written
  | .array items => (unwrapItems? items).map .array
  | .object members =>
    if wrapsNumber members then wrappedNumber? members
    else (unwrapMembers? members).map .object
  | value => some value

/-- Replaces wrapped numbers in every item. -/
def unwrapItems? : List Written → Option (List Written)
  | [] => some []
  | item :: rest => do
    let item ← unwrap? item
    let rest ← unwrapItems? rest
    pure (item :: rest)

/-- Replaces wrapped numbers in every member. -/
def unwrapMembers? : Members → Option Members
  | [] => some []
  | (key, value) :: rest => do
    let value ← unwrap? value
    let rest ← unwrapMembers? rest
    pure ((key, value) :: rest)

end

mutual

/-- The document that is written, if every string in it has a text.  Objects stay
objects, and of members with the same key the last one counts. -/
def plain? : Written → Option Json
  | .null => some .null
  | .bool value => some (.bool value)
  | .number literal => some (.number literal)
  | .string text? => text?.map .string
  | .array items => (plainItems? items).map .array
  | .object members => (plainMembers? members).map fun written =>
    .object (Members.ofWritten written)

/-- The documents of all items. -/
def plainItems? : List Written → Option (List Json)
  | [] => some []
  | item :: rest => do
    let item ← plain? item
    let rest ← plainItems? rest
    pure (item :: rest)

/-- The documents of all members, which may still repeat keys. -/
def plainMembers? : Members → Option Json.Members
  | [] => some []
  | (key, value) :: rest => do
    let key ← key
    let value ← plain? value
    let rest ← plainMembers? rest
    pure ((key, value) :: rest)

end

/-- The document that a value stands for, if it is not too high and every string
in it has a text. -/
def document? (written : Written) : Option Json :=
  if written.height ≤ maxHeight then (unwrap? written).bind plain? else none

end Written

/-- The document that a text stands for. -/
def parse? (text : String) : Option Json :=
  (Written.ofText? text).bind Written.document?

end Json
end Covenant
