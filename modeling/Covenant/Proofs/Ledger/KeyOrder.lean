import Covenant.Contract.Account
import Covenant.Contract.Choice

/-!
# The order of keys

What comes before what among the keys of a state, said without comparison functions:
texts are ordered as in a dictionary by the code points of their characters, addresses
come before roles, accounts go by owner, currency symbol and token name, and choices by
name and owner.  The comparisons by which maps are ordered agree with this.
-/

namespace Covenant

/-- Texts are ordered as in a dictionary, and characters by their code points. -/
def TextBefore (first second : String) : Prop :=
  List.Lex (fun c d : Char => c.toNat < d.toNat) first.toList second.toList

/-- Every address comes before every role, and within a form the text decides. -/
def Party.Before : Party → Party → Prop
  | address text, address text' => TextBefore text text'
  | address _, role _ => True
  | role _, address _ => False
  | role name, role name' => TextBefore name name'

/-- The currency symbol decides first, then the token name. -/
def Asset.Before (first second : Asset) : Prop :=
  TextBefore first.currencySymbol second.currencySymbol ∨
    first.currencySymbol = second.currencySymbol ∧
      TextBefore first.tokenName second.tokenName

/-- The owner decides first, then the asset. -/
def Account.Before (first second : Account) : Prop :=
  first.owner.Before second.owner ∨
    first.owner = second.owner ∧ first.asset.Before second.asset

/-- The name decides first, then the owner. -/
def ChoiceId.Before (first second : ChoiceId) : Prop :=
  TextBefore first.name second.name ∨
    first.name = second.name ∧ first.owner.Before second.owner

/-- Keys are compared by one part, and where that is the same by another. -/
theorem compareLex_eq_lt_iff
    {α β γ : Type}
    [Ord β] [Std.LawfulEqOrd β] [Ord γ]
    {part : α → β}
    {other : α → γ}
    {first second : α} :
    compareLex (compareOn part) (compareOn other) first second = .lt ↔
      compare (part first) (part second) = .lt ∨
        part first = part second ∧ compare (other first) (other second) = .lt := by
  rw [compareLex, Ordering.then_eq_lt]
  exact or_congr_right (and_congr_left' Std.LawfulEqOrd.compare_eq_iff_eq)

theorem compare_text_eq_lt_iff
    {first second : String} :
    compare first second = .lt ↔ TextBefore first second :=
  compareOfLessAndEq_eq_lt

namespace Party

theorem compare_eq_lt_iff
    {first second : Party} :
    compare first second = .lt ↔ first.Before second := by
  refine compareLex_eq_lt_iff.trans ?_
  rw [compare_text_eq_lt_iff]
  have addressFirst : compare false true = .lt := rfl
  cases first <;> cases second <;> simp [isRole, text, Before, addressFirst]

end Party

theorem Asset.compare_eq_lt_iff
    {first second : Asset} :
    compare first second = .lt ↔ first.Before second := by
  refine compareLex_eq_lt_iff.trans ?_
  rw [compare_text_eq_lt_iff, compare_text_eq_lt_iff, Before]

theorem Account.compare_eq_lt_iff
    {first second : Account} :
    compare first second = .lt ↔ first.Before second := by
  refine compareLex_eq_lt_iff.trans ?_
  rw [Party.compare_eq_lt_iff, Asset.compare_eq_lt_iff, Before]

theorem ChoiceId.compare_eq_lt_iff
    {first second : ChoiceId} :
    compare first second = .lt ↔ first.Before second := by
  refine compareLex_eq_lt_iff.trans ?_
  rw [compare_text_eq_lt_iff, Party.compare_eq_lt_iff, Before]

end Covenant
