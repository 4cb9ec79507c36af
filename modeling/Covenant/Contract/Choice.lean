import Covenant.Contract.Party

/-!
# Choices

A party makes a choice by picking a number.  The choice is known by its name and
its owner, and what may be picked lies within bounds.
-/

namespace Covenant

/-- What a choice is known by. -/
structure ChoiceId where
  /-- What is chosen. -/
  name : String
  /-- Who chooses. -/
  owner : Party
deriving DecidableEq, Inhabited

namespace ChoiceId

/-- Choices are ordered by name, and for one name by owner. -/
instance : Ord ChoiceId :=
  ⟨compareLex (compareOn name) (compareOn owner)⟩

instance : Std.TransOrd ChoiceId :=
  inferInstanceAs (Std.TransCmp (compareLex (compareOn name) (compareOn owner)))

instance : Std.LawfulEqOrd ChoiceId where
  eq_of_compare {first second} same := by
    obtain ⟨sameName, sameOwner⟩ := Ordering.then_eq_eq.mp same
    have sameName := Std.LawfulEqOrd.eq_of_compare sameName
    have sameOwner := Std.LawfulEqOrd.eq_of_compare sameOwner
    cases first
    cases second
    simp_all

end ChoiceId

/-- A range of numbers that may be chosen, both ends included.  The ends need not
be in order. -/
structure Bound where
  /-- The largest number. -/
  upper : UInt64
  /-- The smallest number. -/
  lower : UInt64
deriving DecidableEq, Inhabited

end Covenant
