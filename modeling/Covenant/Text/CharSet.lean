/-!
# Sets of characters

A Unicode property is published as a table of code point ranges.  A `CharSet`
is such a table, and `CharSet.contains` reads it.
-/

namespace Covenant

/-- A set of characters, listed as ranges of code points with both ends
included. -/
structure CharSet where
  /-- First and last code point of every range. -/
  ranges : List (Nat × Nat)
deriving DecidableEq

namespace CharSet

/-- Whether the code point of a character lies in one of the ranges. -/
def contains (set : CharSet) (c : Char) : Bool :=
  set.ranges.any fun (first, last) => first ≤ c.toNat && c.toNat ≤ last

theorem contains_iff
    (set : CharSet)
    (c : Char) :
    set.contains c = true ↔
      ∃ range ∈ set.ranges, range.1 ≤ c.toNat ∧ c.toNat ≤ range.2 := by
  simp [contains, List.any_eq_true]

end CharSet
end Covenant
