import Covenant.Json.Numeral
import Covenant.Json.StringPart

/-!
# Lexemes of a JSON text

A JSON text is a sequence of brackets, separators, words, numbers and strings
with blanks between them.  `Lexeme.sequence?` cuts a text into these.
-/

namespace Covenant
namespace Json

/-- A piece of a JSON text. -/
inductive Lexeme where
  | openArray
  | closeArray
  | openObject
  | closeObject
  | comma
  | colon
  | null
  | bool (value : Bool)
  | number (literal : String)
  /-- A string with its text, which is missing if a surrogate is no half of a
  pair. -/
  | string (text? : Option String)
deriving DecidableEq

namespace Lexeme

/-- The characters that may stand between lexemes. -/
def isSpace (c : Char) : Bool :=
  c = ' ' || c = '\t' || c = '\n' || c = '\r'

/-- Cuts off the lexeme that a text begins with. -/
def next? : List Char → Option (Lexeme × List Char)
  | '[' :: rest => some (openArray, rest)
  | ']' :: rest => some (closeArray, rest)
  | '{' :: rest => some (openObject, rest)
  | '}' :: rest => some (closeObject, rest)
  | ',' :: rest => some (comma, rest)
  | ':' :: rest => some (colon, rest)
  | 'n' :: 'u' :: 'l' :: 'l' :: rest => some (null, rest)
  | 't' :: 'r' :: 'u' :: 'e' :: rest => some (bool true, rest)
  | 'f' :: 'a' :: 'l' :: 's' :: 'e' :: rest => some (bool false, rest)
  | '"' :: text =>
    (StringPart.untilQuote? text).map fun (parts, rest) => (string (StringPart.text? parts), rest)
  | text =>
    (Numeral.next? text).map fun (literal, rest) => (number (String.ofList literal), rest)

theorem length_lt_of_next?
    {text rest : List Char}
    {lexeme : Lexeme}
    (found : next? text = some (lexeme, rest)) :
    rest.length < text.length := by
  unfold next? at found
  split at found
  case h_10 text =>
    simp only [Option.map_eq_some_iff, Prod.mk.injEq] at found
    obtain ⟨⟨parts, behind⟩, cut, _, rfl⟩ := found
    have := StringPart.length_lt_of_untilQuote? cut
    simp only [List.length_cons]
    omega
  case h_11 =>
    simp only [Option.map_eq_some_iff, Prod.mk.injEq] at found
    obtain ⟨⟨literal, behind⟩, cut, _, rfl⟩ := found
    exact Numeral.length_lt_of_next? cut
  all_goals
    simp only [Option.some.injEq, Prod.mk.injEq] at found
    simp only [← found.2, List.length_cons]
    omega

/-- The lexemes of a text, if it consists of lexemes and blanks. -/
def sequence? (text : List Char) : Option (List Lexeme) :=
  match unread : text.dropWhile isSpace with
  | [] => some []
  | first :: others =>
    match found : next? (first :: others) with
    | none => none
    | some (lexeme, rest) =>
      have : rest.length < text.length := by
        have shorter := length_lt_of_next? found
        rw [← unread] at shorter
        exact Nat.lt_of_lt_of_le shorter (List.dropWhile_sublist _).length_le
      (sequence? rest).map (lexeme :: ·)
termination_by text.length

theorem sequence?_of_blank
    {text : List Char}
    (unread : text.dropWhile isSpace = []) :
    sequence? text = some [] := by
  rw [sequence?]
  split <;> simp_all

theorem sequence?_of_next?
    {text rest : List Char}
    {lexeme : Lexeme}
    (found : next? (text.dropWhile isSpace) = some (lexeme, rest)) :
    sequence? text = (sequence? rest).map (lexeme :: ·) := by
  rw [sequence?]
  split
  · rename_i unread
    rw [unread] at found
    simp [next?, Numeral.next?, Numeral.unsigned?, Numeral.integerPart?] at found
  · rename_i first others unread
    rw [unread] at found
    split <;> simp_all

end Lexeme
end Json
end Covenant
