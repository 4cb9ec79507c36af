import Covenant.Source.Token
import Covenant.Text.Alphabetic
import Covenant.Text.Blank
import Covenant.Text.Punctuation
import Mathlib.Data.List.Chain

/-!
# Classes of characters

The classes by which a source is cut have no character in common: blanks, alphabetic
characters, digits, quotes and structural characters.  Letters and punctuation marks make
up two further classes: blanks belong to neither, quotes and structural characters are
punctuation marks, and alphabetic characters, letters or not, are none.  The tables of the
Unicode properties are compared range by range.
-/

namespace Covenant

namespace CharSet

/-- No range of one set meets a range of the other. -/
def apartFrom (first second : CharSet) : Bool :=
  first.ranges.all fun range => second.ranges.all fun other =>
    range.2 < other.1 || other.2 < range.1

/-- Where no range of one set meets a range of the other, the sets have no character in
common. -/
theorem contains_eq_false_of_forall_ranges
    {first second : CharSet}
    (apart : ∀ range ∈ first.ranges, ∀ other ∈ second.ranges,
      range.2 < other.1 ∨ other.2 < range.1)
    {c : Char}
    (inFirst : first.contains c = true) :
    second.contains c = false := by
  apply Bool.eq_false_iff.mpr
  intro inSecond
  obtain ⟨range, listed, lower, upper⟩ := (contains_iff first c).mp inFirst
  obtain ⟨other, listedOther, lowerOther, upperOther⟩ := (contains_iff second c).mp inSecond
  have disjoint := apart range listed other listedOther
  omega

theorem contains_eq_false_of_apartFrom
    {first second : CharSet}
    (apart : first.apartFrom second = true)
    {c : Char}
    (inFirst : first.contains c = true) :
    second.contains c = false := by
  refine contains_eq_false_of_forall_ranges (fun range listed other listedOther => ?_) inFirst
  have disjoint := List.all_eq_true.mp (List.all_eq_true.mp apart range listed) other listedOther
  simpa only [Bool.or_eq_true, decide_eq_true_eq] using disjoint

/-- A range is not empty and ends before another one begins. -/
def Precedes (range later : Nat × Nat) : Prop :=
  range.1 ≤ range.2 ∧ range.2 < later.1

instance : DecidableRel Precedes :=
  fun _ _ => inferInstanceAs (Decidable (_ ∧ _))

instance : Trans Precedes Precedes Precedes where
  trans first second :=
    ⟨first.1, Nat.lt_trans (Nat.lt_of_lt_of_le first.2 second.1) second.2⟩

/-- No range of one list meets a range of the other, where both lists ascend: behind the
ranges that end before it begins, each range ends before the next one begins.  The tables of
letters are too long to compare every range with every other one. -/
def apartInOrder : List (Nat × Nat) → List (Nat × Nat) → Bool
  | [], _ => true
  | range :: rest, others =>
    let later := others.dropWhile fun other => other.2.blt range.1
    later.head?.all (fun next => range.2.blt next.1) && apartInOrder rest later

theorem apart_of_apartInOrder
    {ranges others : List (Nat × Nat)}
    (ascends : ranges.Pairwise Precedes)
    (ascendsOthers : others.Pairwise Precedes)
    (apart : apartInOrder ranges others = true) :
    ∀ range ∈ ranges, ∀ other ∈ others, range.2 < other.1 ∨ other.2 < range.1 := by
  induction ranges generalizing others with
  | nil => simp
  | cons range rest inductionHypothesis =>
      obtain ⟨precedes, ascends⟩ := List.pairwise_cons.mp ascends
      rw [apartInOrder, Bool.and_eq_true] at apart
      have inFront : ∀ other ∈ others.takeWhile fun other => other.2.blt range.1,
          other.2 < range.1 := by
        intro other listed
        simpa using List.all_eq_true.mp List.all_takeWhile other listed
      rw [← others.takeWhile_append_dropWhile (p := fun other => other.2.blt range.1)]
        at ascendsOthers ⊢
      generalize others.dropWhile (fun other => other.2.blt range.1) = later at *
      generalize others.takeWhile (fun other => other.2.blt range.1) = skipped at *
      have ascendsLater := (List.pairwise_append.mp ascendsOthers).2.1
      have behind : ∀ other ∈ later, range.2 < other.1 := by
        cases later with
        | nil => simp
        | cons next further =>
            have begins : range.2 < next.1 := by simpa using apart.1
            have nextPrecedes := (List.pairwise_cons.mp ascendsLater).1
            refine List.forall_mem_cons.mpr ⟨begins, fun other listed => ?_⟩
            exact Nat.lt_trans begins (Nat.lt_of_le_of_lt (nextPrecedes other listed).1
              (nextPrecedes other listed).2)
      intro member isMember other isOther
      rcases List.mem_cons.mp isMember with rfl | inRest <;>
        rcases List.mem_append.mp isOther with isSkipped | isLater
      · exact .inr (inFront other isSkipped)
      · exact .inl (behind other isLater)
      · have later := precedes member inRest
        exact .inr (Nat.lt_trans (inFront other isSkipped) (Nat.lt_of_le_of_lt later.1 later.2))
      · exact inductionHypothesis ascends ascendsLater apart.2 member inRest other isLater

theorem contains_eq_false_of_apartInOrder
    {first second : CharSet}
    (ascends : first.ranges.IsChain Precedes)
    (ascendsSecond : second.ranges.IsChain Precedes)
    (apart : apartInOrder first.ranges second.ranges = true)
    {c : Char}
    (inFirst : first.contains c = true) :
    second.contains c = false := by
  rw [List.isChain_iff_pairwise] at ascends ascendsSecond
  exact contains_eq_false_of_forall_ranges
    (apart_of_apartInOrder ascends ascendsSecond apart) inFirst

/-- Every range of one set lies in a range of the other. -/
def within (first second : CharSet) : Bool :=
  first.ranges.all fun range => second.ranges.any fun other =>
    other.1 ≤ range.1 && range.2 ≤ other.2

theorem contains_of_within
    {first second : CharSet}
    (isWithin : first.within second = true)
    {c : Char}
    (inFirst : first.contains c = true) :
    second.contains c = true := by
  obtain ⟨range, listed, lower, upper⟩ := (contains_iff first c).mp inFirst
  obtain ⟨other, listedOther, around⟩ :=
    List.any_eq_true.mp (List.all_eq_true.mp isWithin range listed)
  simp only [Bool.and_eq_true, decide_eq_true_eq] at around
  exact (contains_iff second c).mpr ⟨other, listedOther, by omega, by omega⟩

/-- The ten ASCII digits. -/
def digits : CharSet := ⟨[(0x30, 0x39)]⟩

theorem digits_contains (c : Char) : digits.contains c = c.isDigit := by
  rw [Bool.eq_iff_iff, contains_iff, Char.isDigit_iff_toNat]
  simp [digits]

/-- Quotes, parentheses, brackets and the comma. -/
def marks : CharSet := ⟨[(0x22, 0x22), (0x28, 0x29), (0x2C, 0x2C), (0x5B, 0x5B), (0x5D, 0x5D)]⟩

end CharSet

theorem isAlphabetic_eq_false_of_apartFrom
    {set : CharSet}
    (apartLetters : set.apartFrom .letters = true)
    (apartOthers : set.apartFrom .otherAlphabetic = true)
    {c : Char}
    (inSet : set.contains c = true) :
    isAlphabetic c = false := by
  rw [isAlphabetic, isLetter, CharSet.contains_eq_false_of_apartFrom apartLetters inSet,
    CharSet.contains_eq_false_of_apartFrom apartOthers inSet, Bool.or_false]

theorem isAlphabetic_eq_false_of_isBlank
    {c : Char}
    (blank : isBlank c = true) :
    isAlphabetic c = false :=
  isAlphabetic_eq_false_of_apartFrom (by decide +kernel) (by decide +kernel) blank

theorem isAlphabetic_eq_false_of_isDigit
    {c : Char}
    (digit : c.isDigit = true) :
    isAlphabetic c = false := by
  rw [← CharSet.digits_contains] at digit
  exact isAlphabetic_eq_false_of_apartFrom (by decide +kernel) (by decide +kernel) digit

theorem isDigit_eq_false_of_isAlphabetic
    {c : Char}
    (alphabetic : isAlphabetic c = true) :
    c.isDigit = false := by
  apply Bool.eq_false_iff.mpr
  intro digit
  rw [isAlphabetic_eq_false_of_isDigit digit] at alphabetic
  exact Bool.false_ne_true alphabetic

theorem isBlank_eq_false_of_isAlphabetic
    {c : Char}
    (alphabetic : isAlphabetic c = true) :
    isBlank c = false := by
  apply Bool.eq_false_iff.mpr
  intro blank
  rw [isAlphabetic_eq_false_of_isBlank blank] at alphabetic
  exact Bool.false_ne_true alphabetic

theorem isBlank_eq_false_of_isDigit
    {c : Char}
    (digit : c.isDigit = true) :
    isBlank c = false := by
  rw [← CharSet.digits_contains] at digit
  exact CharSet.contains_eq_false_of_apartFrom (by decide) digit

theorem isBlank_eq_false_of_mem_marks
    {c : Char}
    (mark : CharSet.marks.contains c = true) :
    isBlank c = false :=
  CharSet.contains_eq_false_of_apartFrom (by decide) mark

theorem isAlphabetic_eq_false_of_mem_marks
    {c : Char}
    (mark : CharSet.marks.contains c = true) :
    isAlphabetic c = false :=
  isAlphabetic_eq_false_of_apartFrom (by decide +kernel) (by decide +kernel) mark

theorem isDigit_eq_false_of_mem_marks
    {c : Char}
    (mark : CharSet.marks.contains c = true) :
    c.isDigit = false := by
  rw [← CharSet.digits_contains]
  exact CharSet.contains_eq_false_of_apartFrom (by decide) mark

theorem isLetter_eq_false_of_isBlank
    {c : Char}
    (blank : isBlank c = true) :
    isLetter c = false :=
  CharSet.contains_eq_false_of_apartFrom (by decide +kernel) blank

theorem isPunctuation_eq_false_of_isBlank
    {c : Char}
    (blank : isBlank c = true) :
    isPunctuation c = false :=
  CharSet.contains_eq_false_of_apartFrom (by decide +kernel) blank

theorem isPunctuation_eq_false_of_isAlphabetic
    {c : Char}
    (alphabetic : isAlphabetic c = true) :
    isPunctuation c = false := by
  rw [isAlphabetic, Bool.or_eq_true] at alphabetic
  rcases alphabetic with letter | other
  · exact CharSet.contains_eq_false_of_apartInOrder (by decide +kernel) (by decide +kernel)
      (by decide +kernel) letter
  · exact CharSet.contains_eq_false_of_apartInOrder (by decide +kernel) (by decide +kernel)
      (by decide +kernel) other

theorem isPunctuation_of_mem_marks
    {c : Char}
    (mark : CharSet.marks.contains c = true) :
    isPunctuation c = true :=
  CharSet.contains_of_within (by decide +kernel) mark

theorem TokenKind.mem_marks_of_structural?
    {c : Char}
    {kind : TokenKind}
    (found : structural? c = some kind) :
    CharSet.marks.contains c = true := by
  unfold structural? at found
  split at found
  case h_6 => cases found
  all_goals decide

theorem TokenKind.structural?_eq_none
    {c : Char}
    (noMark : CharSet.marks.contains c = false) :
    structural? c = none := by
  apply Option.eq_none_iff_forall_ne_some.mpr
  intro kind found
  rw [mem_marks_of_structural? found] at noMark
  contradiction

theorem ne_quote_of_not_mem_marks
    {c : Char}
    (noMark : CharSet.marks.contains c = false) :
    c ≠ '"' := by
  rintro rfl
  contradiction

end Covenant
