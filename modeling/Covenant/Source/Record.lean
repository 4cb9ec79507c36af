import Covenant.Json.Record
import Covenant.Source.Diagnostic

/-!
# Records of tokens and diagnostics

Tokens, their kinds and positions, and diagnostics are exchanged as records.  A
kind is written as its name, or as an object that has its name as the only key
and no value there.
-/

namespace Covenant

open Json (Written)

namespace TokenKind

/-- The kind that is written. -/
def read? : Written → Option TokenKind
  | .string (some name) => ofName? name
  | .object [(some name, .null)] => ofName? name
  | _ => none

instance : Record TokenKind := ⟨fun kind => .string kind.name, read?⟩

end TokenKind

namespace Position

/-- The record of a position. -/
def toJson (position : Position) : Json :=
  .object [("line", Record.ofWord position.line), ("column", Record.ofWord position.column)]

/-- The position that is written. -/
def read? (written : Written) : Option Position := do
  match ← Record.fields? ["line", "column"] written with
  | [line, column] => pure ⟨← Record.word? line, ← Record.word? column⟩
  | _ => none

instance : Record Position := ⟨toJson, read?⟩

end Position

namespace Token

/-- The record of a token. -/
def toJson (token : Token) : Json :=
  .object [("kind", .string token.kind.name), ("value", .string token.value),
    ("position", token.position.toJson)]

/-- The token that is written. -/
def read? (written : Written) : Option Token := do
  match ← Record.fields? ["kind", "value", "position"] written with
  | [kind, value, position] =>
    pure ⟨← TokenKind.read? kind, ← Record.text? value, ← Position.read? position⟩
  | _ => none

instance : Record Token := ⟨toJson, read?⟩

end Token

namespace Diagnostic

/-- The record of a diagnostic. -/
def toJson (diagnostic : Diagnostic) : Json :=
  .object [("value", .string diagnostic.value), ("line", Record.ofWord diagnostic.line),
    ("column", Record.ofWord diagnostic.column), ("message", .string diagnostic.message)]

/-- A diagnostic as it is reported, its place first. -/
def report (diagnostic : Diagnostic) : Json :=
  .object [("line", Record.ofWord diagnostic.line), ("column", Record.ofWord diagnostic.column),
    ("value", .string diagnostic.value), ("message", .string diagnostic.message)]

/-- The diagnostic that is written. -/
def read? (written : Written) : Option Diagnostic := do
  match ← Record.fields? ["value", "line", "column", "message"] written with
  | [value, line, column, message] =>
    pure ⟨← Record.text? value, ← Record.word? line, ← Record.word? column,
      ← Record.text? message⟩
  | _ => none

instance : Record Diagnostic := ⟨toJson, read?⟩

end Diagnostic
end Covenant
