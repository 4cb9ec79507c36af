import Covenant.Json.Basic
import Covenant.Json.Written
import Covenant.Text.Decimal

/-!
# Records

A record is a structure that is exchanged as it is, with nothing said about its
text but the names and the order of its fields.  An object stands for a record
if it has each field once, and may have other keys; an array stands for a record
if it lists exactly the fields in their order.  What stands under other keys is
not looked at.
-/

namespace Covenant

/-- A type whose values are exchanged as records. -/
class Record (α : Type) where
  /-- The document of a value. -/
  toJson : α → Json
  /-- The value that is written. -/
  read? : Json.Written → Option α

namespace Record

open Json (Written)

/-- The value of a key that an object has once. -/
def single? (members : Written.Members) (key : String) : Option Written :=
  match members.filter fun member => member.1 = some key with
  | [(_, value)] => some value
  | _ => none

/-- The fields of a record. -/
def fields? (keys : List String) : Written → Option (List Written)
  | .array items => if items.length = keys.length then some items else none
  | .object members =>
    if members.all fun member => member.1.isSome then keys.mapM (single? members) else none
  | _ => none

/-- The text of a string. -/
def text? : Written → Option String
  | .string text? => text?
  | _ => none

/-- A number that fits into 32 bits without a sign and is written with nothing but
digits. -/
def word? : Written → Option UInt32
  | .number literal => do
    let n ← Decimal.toInt? literal
    if 0 ≤ n ∧ n < (UInt32.size : Nat) then some (UInt32.ofNat n.toNat) else none
  | _ => none

/-- The document of a number that fits into 32 bits. -/
def ofWord (n : UInt32) : Json :=
  .number (Decimal.ofNat n.toNat)

/-- The value of a record that a text writes. -/
def ofText? {α : Type} [Record α] (text : String) : Option α :=
  (Written.ofText? text).bind read?

end Record
end Covenant
