import Covenant.Json.Basic

/-!
# Why a document is refused

Every error says which part of the format was being read.  What was found there
instead is described in words.
-/

namespace Covenant

/-- Why a document stands for no node. -/
inductive DecodeError where
  /-- The document has none of the forms that it might have. -/
  | unknownTag (context found : String)
  /-- An object lacks a key of its form. -/
  | missingField (variant field : String)
  /-- An object has a key that its form lacks. -/
  | unexpectedField (variant field : String)
  /-- A part of the document is of the wrong type. -/
  | unexpectedType (context expected found : String)
  /-- A number is not written as an integer. -/
  | invalidInteger (literal : String)
  /-- An integer does not fit where it stands. -/
  | outOfRange (context literal : String)
  /-- An entry of a state repeats an earlier one. -/
  | duplicateKey (context key : String)
  /-- The text is no JSON text. -/
  | malformed
deriving DecidableEq

namespace DecodeError

/-- The wording of a decode error. -/
def message : DecodeError → String
  | unknownTag context found => "unknown " ++ context ++ ": " ++ found
  | missingField variant field => variant ++ ": missing field '" ++ field ++ "'"
  | unexpectedField variant field => variant ++ ": unexpected field '" ++ field ++ "'"
  | unexpectedType context expected found =>
    context ++ ": expected " ++ expected ++ ", found " ++ found
  | invalidInteger literal => "invalid integer literal '" ++ literal ++ "'"
  | outOfRange context literal => context ++ ": integer " ++ literal ++ " out of range"
  | duplicateKey context key => context ++ ": duplicate key " ++ key
  | malformed => "malformed JSON"

/-- The error of a document whose type does not fit its place. -/
def unexpected (context expected : String) (found : Json) : DecodeError :=
  unexpectedType context expected found.describe

/-- The error of a document that has none of the forms of its family. -/
def unknown (context : String) (found : Json) : DecodeError :=
  unknownTag context found.describe

end DecodeError

/-- A node of the format, or why there is none. -/
abbrev Decoded := Except DecodeError

end Covenant
