import Covenant.Source.Position

/-!
# Tokens

A token is a piece of source text with its kind and the position of its last
character.
-/

namespace Covenant

/-- What a piece of source text is. -/
inductive TokenKind where
  /-- The end of the input. -/
  | endOfInput
  /-- Text that belongs to no other kind. -/
  | invalid
  /-- A word of the language. -/
  | keyword
  /-- Quoted text, quotes included. -/
  | string
  /-- A run of digits. -/
  | integer
  | leftParen
  | rightParen
  | leftBracket
  | rightBracket
  | comma
deriving DecidableEq, Inhabited

namespace TokenKind

/-- All kinds of token. -/
def all : List TokenKind :=
  [endOfInput, invalid, keyword, string, integer,
    leftParen, rightParen, leftBracket, rightBracket, comma]

/-- The name of a kind in records of tokens. -/
def name : TokenKind → String
  | endOfInput => "EOF"
  | invalid => "INVALID"
  | keyword => "KEYWORD"
  | string => "STRING"
  | integer => "INT"
  | leftParen => "PARENS_L"
  | rightParen => "PARENS_R"
  | leftBracket => "SQUARE_L"
  | rightBracket => "SQUARE_R"
  | comma => "COMMA"

/-- The kind of a given name. -/
def ofName? (name : String) : Option TokenKind :=
  all.find? fun kind => kind.name == name

@[simp] theorem ofName?_name (kind : TokenKind) : ofName? kind.name = some kind := by
  cases kind <;> rfl

/-- How a kind is shown to a reader: structural characters as themselves, other
kinds by name. -/
def text : TokenKind → String
  | leftParen => "("
  | rightParen => ")"
  | leftBracket => "["
  | rightBracket => "]"
  | comma => ","
  | kind => kind.name

/-- The kind of a structural character. -/
def structural? : Char → Option TokenKind
  | '(' => some leftParen
  | ')' => some rightParen
  | '[' => some leftBracket
  | ']' => some rightBracket
  | ',' => some comma
  | _ => none

end TokenKind

/-- A piece of source text. -/
structure Token where
  /-- What the text is. -/
  kind : TokenKind
  /-- The text itself. -/
  value : String
  /-- The position of its last character. -/
  position : Position
deriving DecidableEq, Inhabited

end Covenant
