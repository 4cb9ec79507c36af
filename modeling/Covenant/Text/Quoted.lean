import Covenant.Text.Unprintable

/-!
# Quoted text

A message shows a piece of text in double quotes, on one line and without
invisible parts: quotes, backslashes and the usual controls have short escapes,
and every other character without a glyph of its own is shown by its code point.
-/

namespace Covenant
namespace Quoted

/-- The digits of a number in base sixteen, lower-case and without padding. -/
def hexadecimal (n : Nat) : String :=
  String.ofList (Nat.toDigits 16 n)

/-- A character shown by its code point, as in `\u{200d}`. -/
def byCodePoint (c : Char) : String :=
  "\\u\x7b" ++ hexadecimal c.toNat ++ "\x7d"

/-- How a character is shown between the quotes. -/
def shown (c : Char) : String :=
  match c with
  | '"' => "\\\""
  | '\\' => "\\\\"
  | '\t' => "\\t"
  | '\n' => "\\n"
  | '\r' => "\\r"
  | '\x00' => "\\0"
  | c => if isPrintable c then c.toString else byCodePoint c

end Quoted

/-- A text in double quotes, each character shown in its turn. -/
def quoted (text : String) : String :=
  "\"" ++ String.join (text.toList.map Quoted.shown) ++ "\""

end Covenant
