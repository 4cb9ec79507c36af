import Covenant.Json.Compact
import Covenant.Json.Lexeme
import Covenant.Proofs.Text.Runs
import Covenant.Text.Decimal

/-!
# Strings and integers in compact texts

A string is read back from between its quotes, whatever characters it has.  The
decimal text of an integer is cut off as a whole where a value may end, because none
of the characters that may stand there goes on with a number.
-/

namespace Covenant
namespace Json
namespace StringPart

/-- The part that a character is written as.  A control without a short escape is
written as a UTF-16 unit, and every other character stands for itself. -/
def ofChar (c : Char) : StringPart :=
  if c.toNat < 0x20 ∧ c ∉ ['\x08', '\x0c', '\n', '\r', '\t'] then unit c.toNat else char c

theorem hexValue?_digitChar : ∀ digit < 16, hexValue? (Nat.digitChar digit) = some digit := by
  decide

theorem hexCode?_of_lt
    {code : Nat}
    (small : code < 0x100) :
    hexCode? '0' '0' (Nat.digitChar (code / 16)) (Nat.digitChar (code % 16)) = some code := by
  have zero : hexValue? '0' = some 0 := by decide
  have high := hexValue?_digitChar (code / 16) (by omega)
  have low := hexValue?_digitChar (code % 16) (by omega)
  simp only [hexCode?, zero, high, low, Option.bind_eq_bind, Option.bind_some, Option.pure_def,
    Option.some.injEq]
  omega

theorem untilQuote?_of_shortEscape
    {mark c : Char}
    (short : shortEscape? mark = some c)
    (rest : List Char) :
    untilQuote? ('\\' :: mark :: rest) =
      (untilQuote? rest).map fun found => (char c :: found.1, found.2) := by
  have noUnit : mark ≠ 'u' := by
    rintro rfl
    simp [shortEscape?] at short
  rw [untilQuote?]
  · rw [short]
    cases untilQuote? rest <;> rfl
  · simp [noUnit]

theorem untilQuote?_escaped_append
    (c : Char)
    (rest : List Char) :
    untilQuote? (escaped c ++ rest) =
      (untilQuote? rest).map fun found => (ofChar c :: found.1, found.2) := by
  unfold escaped
  split
  case h_8 =>
      rename_i noQuote noBackslash noBackspace noFeed noNewline noReturn noTab
      split
      · rename_i control
        have isUnit : ofChar c = unit c.toNat := if_pos ⟨control, by simp_all⟩
        have code := hexCode?_of_lt (show c.toNat < 0x100 by omega)
        simp only [List.cons_append, List.nil_append, untilQuote?, code, isUnit]
        cases untilQuote? rest <;> rfl
      · rename_i noControl
        have isChar : ofChar c = char c := if_neg fun both => noControl both.1
        rw [List.singleton_append, untilQuote?, if_neg noControl, isChar]
        · cases untilQuote? rest <;> rfl
        · exact noQuote
        · exact fun _ _ _ _ _ backslash => (noBackslash backslash).elim
        · exact fun _ _ backslash => (noBackslash backslash).elim
  all_goals exact untilQuote?_of_shortEscape (by rfl) rest

theorem untilQuote?_flatMap_escaped_append
    (text rest : List Char) :
    untilQuote? (text.flatMap escaped ++ '"' :: rest) = some (text.map ofChar, rest) := by
  induction text with
  | nil => rw [List.flatMap_nil, List.nil_append, untilQuote?, List.map_nil]
  | cons c text inductionHypothesis =>
      rw [List.flatMap_cons, List.append_assoc, untilQuote?_escaped_append, inductionHypothesis]
      rfl

theorem characters?_unit_cons
    {code : Nat}
    (small : code < 0xD800)
    (parts : List StringPart) :
    characters? (unit code :: parts) = (characters? parts).map (Char.ofNat code :: ·) := by
  have noHigh : isHighSurrogate code = false := by simp [isHighSurrogate]; omega
  have noLow : isLowSurrogate code = false := by simp [isLowSurrogate]; omega
  cases parts with
  | nil => simp [characters?, noHigh, noLow]
  | cons next parts => cases next <;> simp [characters?, noHigh, noLow]

theorem characters?_map_ofChar (text : List Char) :
    characters? (text.map ofChar) = some text := by
  induction text with
  | nil => rw [List.map_nil, characters?]
  | cons c text inductionHypothesis =>
      rw [List.map_cons, ofChar]
      split
      · rename_i control
        rw [characters?_unit_cons (by omega), inductionHypothesis, Char.ofNat_toNat]
        rfl
      · rw [characters?, inductionHypothesis]
        rfl

theorem text?_map_ofChar (text : String) :
    text? (text.toList.map ofChar) = some text := by
  rw [text?, characters?_map_ofChar, Option.map_some, String.ofList_toList]

end StringPart

/-- A value may end in front of a text: it is empty, or begins with a comma or a closing
bracket. -/
def EndsValue (rest : List Char) : Prop :=
  ∀ c ∈ rest.head?, c ∈ [',', ']', '}']

namespace Numeral

section

variable {rest : List Char} (ends : EndsValue rest)
include ends

theorem isDigit_head_eq_false_of_endsValue : ∀ c ∈ rest.head?, c.isDigit = false := by
  intro c isFirst
  have separator := ends c isFirst
  simp only [List.mem_cons, List.not_mem_nil, or_false] at separator
  rcases separator with rfl | rfl | rfl <;> decide

theorem integerPart?_append_of_isPlain
    {digits : List Char}
    (plain : Decimal.isPlain digits = true) :
    integerPart? (digits ++ rest) = some (digits, rest) := by
  simp only [Decimal.isPlain, Bool.and_eq_true, List.all_eq_true, Bool.or_eq_true, beq_iff_eq,
    bne_iff_ne, Bool.not_eq_true'] at plain
  obtain ⟨⟨nonempty, areDigits⟩, rfl | noZero⟩ := plain
  · rfl
  · cases digits with
    | nil => simp at nonempty
    | cons first digits =>
        obtain ⟨digit, others⟩ := List.forall_mem_cons.mp areDigits
        have noDigit := isDigit_head_eq_false_of_endsValue ends
        rw [List.cons_append, integerPart?, if_pos digit, takeWhile_append_of_ends others noDigit,
          dropWhile_append_of_ends others noDigit]
        rintro rfl
        exact noZero rfl

theorem fraction_of_endsValue : fraction rest = ([], rest) := by
  unfold fraction
  split
  · have separator := ends '.' rfl
    simp at separator
  · rfl

theorem exponent_of_endsValue : exponent rest = ([], rest) := by
  cases rest with
  | nil => rfl
  | cons mark rest =>
      have separator := ends mark rfl
      have noMark : ¬(mark = 'e' ∨ mark = 'E') := by
        rintro (rfl | rfl) <;> simp at separator
      exact if_neg fun both => noMark both.1

theorem unsigned?_append_of_isPlain
    {digits : List Char}
    (plain : Decimal.isPlain digits = true) :
    unsigned? (digits ++ rest) = some (digits, rest) := by
  simp [unsigned?, integerPart?_append_of_isPlain ends plain, fraction_of_endsValue ends,
    exponent_of_endsValue ends]

end

/-- The decimal text of an integer begins with a minus sign or a digit. -/
theorem exists_ofInt_eq_cons (n : Int) :
    ∃ first others, (Decimal.ofInt n).toList = first :: others ∧
      (first = '-' ∨ first.isDigit = true) := by
  cases n with
  | ofNat n =>
      rw [Decimal.ofInt_ofNat, Decimal.toList_ofNat]
      cases digits : Nat.toDigits 10 n with
      | nil => exact absurd digits Nat.toDigits_ne_nil
      | cons first others =>
          have listed : first ∈ Nat.toDigits 10 n := digits ▸ List.mem_cons_self
          have digit := Nat.isDigit_of_mem_toDigits (by decide) (by decide) listed
          exact ⟨first, others, rfl, .inr digit⟩
  | negSucc n => exact ⟨'-', _, Decimal.toList_ofInt_negSucc n, .inl rfl⟩

/-- The decimal text of an integer is cut off as a whole. -/
theorem next?_ofInt_append
    (n : Int)
    {rest : List Char}
    (ends : EndsValue rest) :
    next? ((Decimal.ofInt n).toList ++ rest) = some ((Decimal.ofInt n).toList, rest) := by
  cases n with
  | ofNat n =>
      rw [Decimal.ofInt_ofNat, Decimal.toList_ofNat, next?]
      · exact unsigned?_append_of_isPlain ends (Decimal.isPlain_toDigits n)
      · intro text minus
        cases digits : Nat.toDigits 10 n with
        | nil => exact Nat.toDigits_ne_nil digits
        | cons first others =>
            rw [digits, List.cons_append] at minus
            obtain ⟨rfl, _⟩ := List.cons.inj minus
            exact Decimal.minus_cons_ne_toDigits others n digits.symm
  | negSucc n =>
      rw [Decimal.toList_ofInt_negSucc, List.cons_append, next?,
        unsigned?_append_of_isPlain ends (Decimal.isPlain_toDigits (n + 1))]
      rfl

end Numeral
end Json
end Covenant
