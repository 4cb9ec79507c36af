import Covenant.Source.Token
import Covenant.Text.Alphabetic

/-!
# Diagnostics

A diagnostic tells a reader why a token is invalid.  The reason can be read off
the first character of the token's text.
-/

namespace Covenant

/-- What is wrong at a place of the source. -/
structure Diagnostic where
  /-- The text that is wrong. -/
  value : String
  /-- The line of its last character. -/
  line : UInt32
  /-- The column of its last character. -/
  column : UInt32
  /-- What is wrong with it. -/
  message : String
deriving DecidableEq

namespace Diagnostic

/-- Why a text is no token. -/
inductive Reason where
  /-- A run of digits that a letter or a punctuation mark cuts off. -/
  | invalidInteger
  /-- A run of alphabetic characters that is no keyword. -/
  | unknownKeyword
  /-- A character that begins no token. -/
  | unexpectedCharacter
deriving DecidableEq

namespace Reason

/-- The reason why a text is no token. -/
def ofText (text : String) : Reason :=
  match text.toList.head? with
  | some c =>
    if c.isDigit then invalidInteger
    else if isAlphabetic c then unknownKeyword
    else unexpectedCharacter
  | none => unexpectedCharacter

/-- The wording of a reason. -/
def wording : Reason → String
  | invalidInteger => "invalid integer literal"
  | unknownKeyword => "unknown keyword"
  | unexpectedCharacter => "unexpected character"

end Reason

/-- The diagnostic of an invalid token; other tokens have none. -/
def ofToken? (token : Token) : Option Diagnostic :=
  if token.kind = .invalid then
    some {
      value := token.value
      line := token.position.line
      column := token.position.column
      message := (Reason.ofText token.value).wording ++ " '" ++ token.value ++ "'" }
  else none

/-- A diagnostic on one line, its place first. -/
def text (diagnostic : Diagnostic) : String :=
  (Position.mk diagnostic.line diagnostic.column).text ++ ": " ++ diagnostic.message

end Diagnostic

/-- The diagnostics of the invalid tokens, in their order. -/
def diagnostics (tokens : List Token) : List Diagnostic :=
  tokens.filterMap Diagnostic.ofToken?

end Covenant
