import Covenant.Text.Decimal
import Mathlib.Data.List.Induction
import Mathlib.Data.Nat.Digits.Defs

/-!
# Numerals

The decimal texts of integers are the words of a small grammar: the single digit `0`, or
digits that begin with another one, and behind a minus sign the same again without zero
(`Decimal.Denotes`).  Every digit counts by its place.  Each word of the grammar is the text
of the integer that it denotes, and the text of each integer is a word
(`Decimal.denotes_iff`).
-/

namespace Covenant
namespace Decimal

/-- The single digit `0`, or digits that begin with another one. -/
inductive IsNumeral : List Char → Prop
  | zero : IsNumeral ['0']
  | nonzero {first : Char} {rest : List Char} :
      first.isDigit = true →
      first ≠ '0' →
      (∀ c ∈ rest, c.isDigit = true) →
      IsNumeral (first :: rest)

/-- The number of some digits, of which the last one counts once, the one in front of it
tenfold, and so on. -/
def magnitude (digits : List Char) : Nat :=
  Nat.ofDigits 10 (digits.reverse.map fun c => c.toNat - '0'.toNat)

/-- A text denotes an integer: its digits do, behind a minus sign if it is negative.  There
is no negative zero. -/
inductive Denotes : String → Int → Prop
  | natural {digits : List Char} :
      IsNumeral digits →
      Denotes (String.ofList digits) (magnitude digits)
  | negative {digits : List Char} :
      IsNumeral digits →
      digits ≠ ['0'] →
      Denotes (String.ofList ('-' :: digits)) (-(magnitude digits : Int))

theorem isPlain_iff {digits : List Char} : isPlain digits = true ↔ IsNumeral digits := by
  constructor
  · intro plain
    cases digits with
    | nil => cases plain
    | cons first rest =>
        simp only [isPlain, List.isEmpty_cons, Bool.not_false, Bool.true_and, List.all_cons,
          Bool.and_eq_true, List.all_eq_true, Bool.or_eq_true, beq_iff_eq, bne_iff_ne,
          List.head?_cons, ne_eq, Option.some.injEq] at plain
        obtain ⟨⟨isDigit, areDigits⟩, same | noZero⟩ := plain
        · rw [same]
          exact .zero
        · exact .nonzero isDigit noZero areDigits
  · rintro (_ | ⟨isDigit, noZero, areDigits⟩)
    · rfl
    · simpa [isPlain, isDigit, noZero] using areDigits

/-- Reading digits one after the other gives each its place. -/
theorem ofDigitChars_eq_magnitude (digits : List Char) :
    Nat.ofDigitChars 10 digits 0 = magnitude digits := by
  induction digits using List.reverseRecOn with
  | nil => rfl
  | append_singleton digits last inductionHypothesis =>
      rw [Nat.ofDigitChars_append, inductionHypothesis, Nat.ofDigitChars_cons,
        Nat.ofDigitChars_nil, magnitude, magnitude, List.reverse_append, List.reverse_singleton,
        List.singleton_append, List.map_cons, Nat.ofDigits_cons, Nat.add_comm]

/-- A numeral is the decimal text of its number. -/
theorem IsNumeral.eq_toDigits
    {digits : List Char}
    (numeral : IsNumeral digits) :
    digits = Nat.toDigits 10 (magnitude digits) := by
  apply digitsToNat?_eq_some_iff.mp
  rw [digitsToNat?, if_pos (isPlain_iff.mpr numeral), ofDigitChars_eq_magnitude]

theorem isNumeral_toDigits (n : Nat) : IsNumeral (Nat.toDigits 10 n) :=
  isPlain_iff.mp (isPlain_toDigits n)

@[simp] theorem magnitude_toDigits (n : Nat) : magnitude (Nat.toDigits 10 n) = n := by
  rw [← ofDigitChars_eq_magnitude, Nat.ofDigitChars_ten_toDigits]

/-- A text denotes an integer exactly if it is the text that is written for it. -/
theorem denotes_iff
    {text : String}
    {n : Int} :
    Denotes text n ↔ text = ofInt n := by
  constructor
  · rintro (⟨numeral⟩ | ⟨numeral, nonzero⟩)
    · rw [ofInt_natCast, ← String.toList_inj, String.toList_ofList, toList_ofNat]
      exact numeral.eq_toDigits
    · rename_i digits
      have positive : magnitude digits ≠ 0 := by
        intro zero
        have same := numeral.eq_toDigits
        rw [zero, Nat.toDigits_zero] at same
        exact nonzero same
      obtain ⟨m, isSucc⟩ := Nat.exists_eq_succ_of_ne_zero positive
      have isNegative : -(magnitude digits : Int) = Int.negSucc m := by
        rw [isSucc]
        rfl
      rw [isNegative, ← String.toList_inj, String.toList_ofList, toList_ofInt_negSucc,
        ← Nat.succ_eq_add_one, ← isSucc, ← numeral.eq_toDigits]
  · rintro rfl
    cases n with
    | ofNat m =>
        have denotes := Denotes.natural (isNumeral_toDigits m)
        rwa [magnitude_toDigits, ← toList_ofNat, String.ofList_toList] at denotes
    | negSucc m =>
        have nonzero : Nat.toDigits 10 (m + 1) ≠ ['0'] := by
          intro zero
          have value := magnitude_toDigits (m + 1)
          rw [zero] at value
          cases value
        have denotes := Denotes.negative (isNumeral_toDigits (m + 1)) nonzero
        rwa [magnitude_toDigits, ← toList_ofInt_negSucc, String.ofList_toList] at denotes

/-- The check that a literal has to pass before it is taken for an integer. -/
def isCanonical (literal : String) : Bool :=
  match literal.toList with
  | '-' :: digits => isPlain digits && digits != ['0']
  | digits => isPlain digits

/-- The check accepts just the words of the grammar. -/
theorem isCanonical_iff
    {literal : String} :
    isCanonical literal = true ↔ ∃ n, Denotes literal n := by
  constructor
  · intro canonical
    unfold isCanonical at canonical
    split at canonical
    · rename_i digits isNegative
      simp only [Bool.and_eq_true, bne_iff_ne, ne_eq, isPlain_iff] at canonical
      have denotes := Denotes.negative canonical.1 canonical.2
      rw [← isNegative, String.ofList_toList] at denotes
      exact ⟨_, denotes⟩
    · have denotes := Denotes.natural (isPlain_iff.mp canonical)
      rw [String.ofList_toList] at denotes
      exact ⟨_, denotes⟩
  · rintro ⟨n, numeral | ⟨numeral, nonzero⟩⟩
    · rw [isCanonical, String.toList_ofList]
      split
      · -- A minus sign is no digit.
        cases numeral with
        | nonzero isDigit => exact absurd isDigit (by decide)
      · exact isPlain_iff.mpr numeral
    · simp [isCanonical, isPlain_iff.mpr numeral, nonzero]

end Decimal
end Covenant
