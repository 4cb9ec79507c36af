/-!
# Decimal text of integers

Every integer has exactly one decimal text: digits without a leading zero, after
a minus sign if the integer is negative.  `Decimal.ofInt` writes it and
`Decimal.toInt?` reads it, and reading refuses every other spelling
(`toInt?_eq_some_iff`).
-/

namespace Covenant
namespace Decimal

/-- The decimal text of an integer. -/
def ofInt (n : Int) : String :=
  n.repr

/-- The decimal text of a natural number. -/
def ofNat (n : Nat) : String :=
  n.repr

@[simp] theorem ofInt_ofNat (n : Nat) : ofInt (Int.ofNat n) = ofNat n := rfl

@[simp] theorem ofInt_natCast (n : Nat) : ofInt (n : Int) = ofNat n := rfl

/-- Whether digits have no leading zero, where the single digit zero is allowed. -/
def isPlain (digits : List Char) : Bool :=
  !digits.isEmpty && digits.all Char.isDigit && (digits == ['0'] || digits.head? != some '0')

/-- The natural number that plain digits stand for. -/
def digitsToNat? (digits : List Char) : Option Nat :=
  if isPlain digits then some (Nat.ofDigitChars 10 digits 0) else none

/-- The integer whose decimal text this is; there is no negative zero. -/
def toInt? (text : String) : Option Int :=
  match text.toList with
  | '-' :: digits =>
    (digitsToNat? digits).bind fun n => if n = 0 then none else some (-(n : Int))
  | digits => (digitsToNat? digits).map Int.ofNat

/-! ## Digits -/

theorem digitChar_sub_of_isDigit
    {c : Char}
    (digit : c.isDigit = true) :
    Nat.digitChar (c.toNat - '0'.toNat) = c := by
  rw [Char.isDigit_iff_toNat] at digit
  have zero : '0'.toNat = 48 := rfl
  have nine : '9'.toNat = 57 := rfl
  apply Char.toNat_inj.mp
  rw [Nat.toNat_digitChar_of_lt_ten (by omega)]
  omega

/-- Further digits extend the decimal digits of a number that is not zero. -/
theorem toDigits_append_eq
    {digits : List Char}
    (areDigits : ∀ c ∈ digits, c.isDigit = true)
    {n : Nat}
    (positive : 0 < n) :
    Nat.toDigits 10 n ++ digits = Nat.toDigits 10 (Nat.ofDigitChars 10 digits n) := by
  induction digits generalizing n with
  | nil => simp
  | cons c digits ih =>
    have digit := areDigits c List.mem_cons_self
    have same := digitChar_sub_of_isDigit digit
    have small : c.toNat - '0'.toNat < 10 := by
      rw [Char.isDigit_iff_toNat] at digit
      have zero : '0'.toNat = 48 := rfl
      have nine : '9'.toNat = 57 := rfl
      omega
    have step := Nat.toDigits_append_toDigits (b := 10) (by decide) positive small
    rw [Nat.toDigits_of_lt_base small, same] at step
    rw [Nat.ofDigitChars_cons, ← ih (fun d member => areDigits d (List.mem_cons_of_mem _ member))
      (by omega), ← step]
    simp

theorem head?_toDigits_ne_zero
    {n : Nat}
    (positive : 0 < n) :
    (Nat.toDigits 10 n).head? ≠ some '0' := by
  induction n using Nat.strongRecOn with
  | ind n ih =>
    by_cases small : n < 10
    · rw [Nat.toDigits_of_lt_base small]
      intro same
      have value := Nat.toNat_digitChar_of_lt_ten small
      rw [Option.some.inj same] at value
      have zero : '0'.toNat = 48 := rfl
      omega
    · have shorter := ih (n / 10) (by omega) (by omega)
      rw [Nat.toDigits_of_base_le (by decide) (by omega)]
      cases higher : Nat.toDigits 10 (n / 10) with
      | nil => exact absurd higher Nat.toDigits_ne_nil
      | cons c digits =>
        rw [higher] at shorter
        simpa using shorter

theorem isPlain_toDigits (n : Nat) : isPlain (Nat.toDigits 10 n) = true := by
  have digits : (Nat.toDigits 10 n).all Char.isDigit = true :=
    List.all_eq_true.mpr fun c member => Nat.isDigit_of_mem_toDigits (by decide) (by decide) member
  rcases Nat.eq_zero_or_pos n with rfl | positive
  · rfl
  · simp [isPlain, digits, head?_toDigits_ne_zero positive, Nat.toDigits_ne_nil]

theorem digitsToNat?_eq_some_iff
    {digits : List Char}
    {n : Nat} :
    digitsToNat? digits = some n ↔ digits = Nat.toDigits 10 n := by
  constructor
  · intro read
    unfold digitsToNat? at read
    split at read
    · rename_i plain
      obtain rfl := Option.some.inj read
      simp only [isPlain, Bool.and_eq_true, List.all_eq_true, Bool.or_eq_true, beq_iff_eq,
        bne_iff_ne, Bool.not_eq_true'] at plain
      obtain ⟨⟨nonempty, areDigits⟩, rfl | noZero⟩ := plain
      · rfl
      · cases digits with
        | nil => simp at nonempty
        | cons c digits =>
          have digit := areDigits c List.mem_cons_self
          have same := digitChar_sub_of_isDigit digit
          rw [Char.isDigit_iff_toNat] at digit
          have zero : '0'.toNat = 48 := rfl
          have nine : '9'.toNat = 57 := rfl
          have notZero : c.toNat ≠ 48 := fun isZero =>
            noZero (congrArg some (Char.toNat_inj.mp isZero))
          rw [Nat.ofDigitChars_cons, Nat.mul_zero, Nat.zero_add, ← toDigits_append_eq
            (fun d member => areDigits d (List.mem_cons_of_mem _ member)) (by omega),
            Nat.toDigits_of_lt_base (by omega), same]
          rfl
    · simp at read
  · rintro rfl
    simp [digitsToNat?, isPlain_toDigits, Nat.ofDigitChars_ten_toDigits]

theorem toList_ofNat (n : Nat) : (ofNat n).toList = Nat.toDigits 10 n := by
  simp [ofNat, Nat.repr]

theorem toList_ofInt_negSucc (n : Nat) :
    (ofInt (Int.negSucc n)).toList = '-' :: Nat.toDigits 10 (n + 1) := by
  simp [ofInt, Int.repr, Nat.repr]

theorem minus_cons_ne_toDigits (digits : List Char) (n : Nat) :
    '-' :: digits ≠ Nat.toDigits 10 n := by
  intro same
  have digit : '-'.isDigit = true :=
    Nat.isDigit_of_mem_toDigits (by decide) (by decide) (same ▸ List.mem_cons_self)
  exact absurd digit (by decide)

/-- Reading accepts exactly what writing produces. -/
theorem toInt?_eq_some_iff
    {text : String}
    {n : Int} :
    toInt? text = some n ↔ text = ofInt n := by
  rw [← String.toList_inj]
  unfold toInt?
  split
  · rename_i digits written
    rw [written]
    cases n with
    | ofNat n =>
      rw [ofInt_ofNat, toList_ofNat]
      refine iff_of_false (fun read => ?_) (minus_cons_ne_toDigits digits n)
      obtain ⟨m, _, negative⟩ := Option.bind_eq_some_iff.mp read
      split at negative <;> simp at negative
      omega
    | negSucc n =>
      rw [toList_ofInt_negSucc, Option.bind_eq_some_iff]
      constructor
      · rintro ⟨m, read, negative⟩
        split at negative <;> simp at negative
        obtain rfl : m = n + 1 := by omega
        rw [digitsToNat?_eq_some_iff.mp read]
      · intro equal
        exact ⟨n + 1, digitsToNat?_eq_some_iff.mpr (List.cons.inj equal).2, by simp; omega⟩
  · rename_i notNegative
    cases n with
    | ofNat n =>
      rw [ofInt_ofNat, toList_ofNat, ← digitsToNat?_eq_some_iff]
      constructor
      · intro read
        obtain ⟨m, found, equal⟩ := Option.map_eq_some_iff.mp read
        rw [found, Int.ofNat.inj equal]
      · intro found
        rw [found]
        rfl
    | negSucc n =>
      rw [toList_ofInt_negSucc]
      refine iff_of_false (fun read => ?_) (notNegative _)
      obtain ⟨m, _, equal⟩ := Option.map_eq_some_iff.mp read
      simp at equal

@[simp] theorem toInt?_ofInt (n : Int) : toInt? (ofInt n) = some n :=
  toInt?_eq_some_iff.mpr rfl

end Decimal
end Covenant
