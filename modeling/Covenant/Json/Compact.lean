import Covenant.Json.Basic

/-!
# Compact text of a document

The compact text of a document has no blanks.  In strings only quotes,
backslashes and the controls below the space are escaped.
-/

namespace Covenant
namespace Json

/-- How a character is written in a string. -/
def escaped (c : Char) : List Char :=
  match c with
  | '"' => ['\\', '"']
  | '\\' => ['\\', '\\']
  | '\x08' => ['\\', 'b']
  | '\x0c' => ['\\', 'f']
  | '\n' => ['\\', 'n']
  | '\r' => ['\\', 'r']
  | '\t' => ['\\', 't']
  | c =>
    if c.toNat < 0x20 then
      ['\\', 'u', '0', '0', Nat.digitChar (c.toNat / 16), Nat.digitChar (c.toNat % 16)]
    else [c]

/-- A string with its quotes. -/
def renderString (text : String) : List Char :=
  '"' :: text.toList.flatMap escaped ++ ['"']

mutual

/-- The characters of the compact text of a document. -/
def render : Json → List Char
  | null => ['n', 'u', 'l', 'l']
  | bool true => ['t', 'r', 'u', 'e']
  | bool false => ['f', 'a', 'l', 's', 'e']
  | number literal => literal.toList
  | string text => renderString text
  | array [] => ['[', ']']
  | array (item :: rest) => '[' :: item.render ++ renderItems rest
  | object [] => ['{', '}']
  | object ((key, value) :: rest) =>
    '{' :: renderString key ++ ':' :: value.render ++ renderMembers rest

/-- The items behind the first one, and the end of their array. -/
def renderItems : List Json → List Char
  | [] => [']']
  | item :: rest => ',' :: item.render ++ renderItems rest

/-- The members behind the first one, and the end of their object. -/
def renderMembers : Members → List Char
  | [] => ['}']
  | (key, value) :: rest =>
    ',' :: renderString key ++ ':' :: value.render ++ renderMembers rest

end

/-- The compact text of a document. -/
def compact (document : Json) : String :=
  String.ofList document.render

end Json
end Covenant
