import Covenant.Text.Quoted

/-!
# JSON documents

A document is a tree of JSON values.  Numbers are kept as literals, so that no
digit is lost, and objects keep their members in document order.
-/

namespace Covenant

/-- A JSON document. -/
inductive Json where
  | null
  | bool (value : Bool)
  /-- A number, as its literal. -/
  | number (literal : String)
  | string (text : String)
  | array (items : List Json)
  /-- An object with its members in document order. -/
  | object (members : List (String × Json))
deriving Inhabited

namespace Json

/-- The members of an object, in document order. -/
abbrev Members := List (String × Json)

namespace Members

/-- The keys of an object, in document order. -/
def keys (members : Members) : List String :=
  members.map Prod.fst

/-- Whether an object has a key. -/
def hasKey (members : Members) (key : String) : Bool :=
  (keys members).contains key

/-- Sets a key: its value is replaced where it stands, or added at the end. -/
def set (key : String) (value : Json) : Members → Members
  | [] => [(key, value)]
  | (other, old) :: rest =>
    if other = key then (key, value) :: rest else (other, old) :: set key value rest

/-- An object from members that may repeat a key: the last value wins, and a key
stays where it stood first. -/
def ofWritten (written : Members) : Members :=
  written.foldl (fun members (key, value) => set key value members) []

end Members

mutual

/-- How many arrays and objects lie on the longest path into a document. -/
def height : Json → Nat
  | array items => heightOfItems items + 1
  | object members => heightOfMembers members + 1
  | _ => 0

/-- The height of the highest item. -/
def heightOfItems : List Json → Nat
  | [] => 0
  | item :: rest => max item.height (heightOfItems rest)

/-- The height of the highest member. -/
def heightOfMembers : Members → Nat
  | [] => 0
  | (_, value) :: rest => max value.height (heightOfMembers rest)

end

/-- A short description of a document for messages. -/
def describe : Json → String
  | null => "null"
  | bool value => if value then "true" else "false"
  | number literal => "number " ++ literal
  | string text => "string " ++ quoted text
  | array items => "array of " ++ items.length.repr
  | object members => "object \x7b" ++ String.intercalate ", " (Members.keys members) ++ "\x7d"

end Json
end Covenant
