/-!
# Number literals

A JSON number is written as an integer without leading zeros, then possibly a
fraction, then possibly an exponent.  Literals are kept as they are written, the
exponent excepted: its mark becomes a small letter and its sign explicit.
-/

namespace Covenant
namespace Json
namespace Numeral

/-- Cuts off an integer part without leading zeros. -/
def integerPart? : List Char → Option (List Char × List Char)
  | '0' :: rest => some (['0'], rest)
  | first :: rest =>
    if first.isDigit then
      some (first :: rest.takeWhile Char.isDigit, rest.dropWhile Char.isDigit)
    else none
  | [] => none

/-- Cuts off a fraction, if a point and a digit come next. -/
def fraction : List Char → List Char × List Char
  | '.' :: digit :: rest =>
    if digit.isDigit then
      ('.' :: digit :: rest.takeWhile Char.isDigit, rest.dropWhile Char.isDigit)
    else ([], '.' :: digit :: rest)
  | text => ([], text)

/-- The sign of an exponent, which is positive where none is written, and the
text behind it. -/
def exponentSign : List Char → Char × List Char
  | '+' :: rest => ('+', rest)
  | '-' :: rest => ('-', rest)
  | text => ('+', text)

/-- Cuts off an exponent, if a mark, possibly a sign, and a digit come next. -/
def exponent : List Char → List Char × List Char
  | [] => ([], [])
  | mark :: text =>
    let (sign, behind) := exponentSign text
    let digits := behind.takeWhile Char.isDigit
    if (mark = 'e' ∨ mark = 'E') ∧ digits ≠ [] then
      ('e' :: sign :: digits, behind.dropWhile Char.isDigit)
    else ([], mark :: text)

/-- Cuts off a literal without its sign. -/
def unsigned? (text : List Char) : Option (List Char × List Char) := do
  let (whole, behindWhole) ← integerPart? text
  let (decimals, behindDecimals) := fraction behindWhole
  let (power, rest) := exponent behindDecimals
  pure (whole ++ decimals ++ power, rest)

/-- Cuts off the longest number literal that a text begins with. -/
def next? : List Char → Option (List Char × List Char)
  | '-' :: text => (unsigned? text).map fun (literal, rest) => ('-' :: literal, rest)
  | text => unsigned? text

theorem length_lt_of_integerPart?
    {text whole rest : List Char}
    (found : integerPart? text = some (whole, rest)) :
    rest.length < text.length := by
  unfold integerPart? at found
  split at found
  · simp only [Option.some.injEq, Prod.mk.injEq] at found
    simp [← found.2]
  · split at found <;> simp only [Option.some.injEq, Prod.mk.injEq, reduceCtorEq] at found
    rw [← found.2, List.length_cons]
    exact Nat.lt_succ_of_le (List.dropWhile_sublist _).length_le
  · simp at found

theorem length_fraction_le (text : List Char) :
    (fraction text).2.length ≤ text.length := by
  unfold fraction
  split
  · rename_i digit behind
    split
    · have : (behind.dropWhile Char.isDigit).length ≤ behind.length :=
        (List.dropWhile_sublist _).length_le
      simp only [List.length_cons]
      omega
    · exact Nat.le_refl _
  · exact Nat.le_refl _

theorem length_exponentSign_le (text : List Char) :
    (exponentSign text).2.length ≤ text.length := by
  unfold exponentSign
  split <;> simp

theorem length_exponent_le (text : List Char) :
    (exponent text).2.length ≤ text.length := by
  cases text with
  | nil => exact Nat.le_refl _
  | cons mark text =>
    simp only [exponent]
    split
    · have : ((exponentSign text).2.dropWhile Char.isDigit).length ≤
          (exponentSign text).2.length :=
        (List.dropWhile_sublist _).length_le
      have := length_exponentSign_le text
      simp only [List.length_cons]
      omega
    · exact Nat.le_refl _

theorem length_lt_of_unsigned?
    {text literal rest : List Char}
    (found : unsigned? text = some (literal, rest)) :
    rest.length < text.length := by
  simp only [unsigned?, Option.bind_eq_bind, Option.bind_eq_some_iff, Prod.exists] at found
  obtain ⟨whole, behindWhole, cut, result⟩ := found
  have := length_lt_of_integerPart? cut
  have := length_fraction_le behindWhole
  have := length_exponent_le (fraction behindWhole).2
  simp only [pure, Option.some.injEq, Prod.mk.injEq] at result
  rw [← result.2]
  omega

theorem length_lt_of_next?
    {text literal rest : List Char}
    (found : next? text = some (literal, rest)) :
    rest.length < text.length := by
  unfold next? at found
  split at found
  · simp only [Option.map_eq_some_iff, Prod.mk.injEq] at found
    obtain ⟨⟨digits, behind⟩, cut, _, rfl⟩ := found
    have := length_lt_of_unsigned? cut
    simp only [List.length_cons]
    omega
  · exact length_lt_of_unsigned? found

/-- The literal that makes up the whole of a text. -/
def whole? (text : String) : Option String :=
  match next? text.toList with
  | some (literal, []) => some (String.ofList literal)
  | _ => none

end Numeral
end Json
end Covenant
