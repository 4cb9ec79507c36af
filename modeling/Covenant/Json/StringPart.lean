/-!
# Parts of a JSON string

Between its quotes a JSON string is a sequence of characters, short escapes, and
UTF-16 units written as four hexadecimal digits.  Two units that form a surrogate
pair stand for one character, and a surrogate that is no half of a pair stands
for none.
-/

namespace Covenant
namespace Json

/-- A part of a string between its quotes. -/
inductive StringPart where
  /-- A character, written as itself or as a short escape. -/
  | char (c : Char)
  /-- A UTF-16 unit, written as four hexadecimal digits. -/
  | unit (code : Nat)
deriving DecidableEq

namespace StringPart

/-- Whether a number is a UTF-16 unit that begins a surrogate pair. -/
def isHighSurrogate (code : Nat) : Bool :=
  0xD800 ≤ code && code < 0xDC00

/-- Whether a number is a UTF-16 unit that ends a surrogate pair. -/
def isLowSurrogate (code : Nat) : Bool :=
  0xDC00 ≤ code && code < 0xE000

/-- The character that a surrogate pair stands for. -/
def ofSurrogates (high low : Nat) : Char :=
  Char.ofNat (0x10000 + (high - 0xD800) * 0x400 + (low - 0xDC00))

/-- The characters that the parts stand for, if every surrogate is half of a
pair. -/
def characters? : List StringPart → Option (List Char)
  | [] => some []
  | char c :: rest => (characters? rest).map (c :: ·)
  | unit high :: unit low :: rest =>
    if isHighSurrogate high then
      if isLowSurrogate low then (characters? rest).map (ofSurrogates high low :: ·) else none
    else if isLowSurrogate high then none
    else (characters? (unit low :: rest)).map (Char.ofNat high :: ·)
  | unit code :: rest =>
    if isHighSurrogate code || isLowSurrogate code then none
    else (characters? rest).map (Char.ofNat code :: ·)

/-- The text that the parts stand for, if they stand for one. -/
def text? (parts : List StringPart) : Option String :=
  (characters? parts).map String.ofList

/-- The value of a hexadecimal digit. -/
def hexValue? (c : Char) : Option Nat :=
  if c.isDigit then some (c.toNat - '0'.toNat)
  else if 'a' ≤ c ∧ c ≤ 'f' then some (c.toNat - 'a'.toNat + 10)
  else if 'A' ≤ c ∧ c ≤ 'F' then some (c.toNat - 'A'.toNat + 10)
  else none

/-- The number that four hexadecimal digits stand for. -/
def hexCode? (a b c d : Char) : Option Nat := do
  pure ((((← hexValue? a) * 16 + (← hexValue? b)) * 16 + (← hexValue? c)) * 16 + (← hexValue? d))

/-- The character that a short escape stands for. -/
def shortEscape? : Char → Option Char
  | '"' => some '"'
  | '\\' => some '\\'
  | '/' => some '/'
  | 'b' => some '\x08'
  | 'f' => some '\x0c'
  | 'n' => some '\n'
  | 'r' => some '\r'
  | 't' => some '\t'
  | _ => none

/-- The parts of a string up to its closing quote, and the text behind it.
Controls have to be escaped. -/
def untilQuote? : List Char → Option (List StringPart × List Char)
  | [] => none
  | '"' :: rest => some ([], rest)
  | '\\' :: 'u' :: a :: b :: c :: d :: rest => do
    let code ← hexCode? a b c d
    let (parts, behind) ← untilQuote? rest
    pure (unit code :: parts, behind)
  | '\\' :: mark :: rest => do
    let c ← shortEscape? mark
    let (parts, behind) ← untilQuote? rest
    pure (char c :: parts, behind)
  | c :: rest =>
    if c.toNat < 0x20 then none
    else do
      let (parts, behind) ← untilQuote? rest
      pure (char c :: parts, behind)

theorem length_lt_of_untilQuote?
    {text rest : List Char}
    {parts : List StringPart}
    (found : untilQuote? text = some (parts, rest)) :
    rest.length < text.length := by
  fun_induction untilQuote? text generalizing parts with
  | case1 => simp at found
  | case2 => simp_all
  | case3 a b c d text ih =>
    simp [Option.bind_eq_some_iff] at found
    obtain ⟨_, _, parts, inner, _⟩ := found
    have := ih inner
    simp only [List.length_cons]
    omega
  | case4 mark text _ ih =>
    simp [Option.bind_eq_some_iff] at found
    obtain ⟨_, _, parts, inner, _⟩ := found
    have := ih inner
    simp only [List.length_cons]
    omega
  | case5 => simp at found
  | case6 c text _ _ _ _ ih =>
    simp [Option.bind_eq_some_iff] at found
    obtain ⟨parts, inner, _⟩ := found
    have := ih inner
    simp only [List.length_cons]
    omega

end StringPart
end Json
end Covenant
