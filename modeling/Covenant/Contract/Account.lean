import Covenant.Contract.Party

/-!
# Assets and accounts

An asset is named by a currency symbol and a token name, both of which are
opaque.  An account holds one asset for one party.
-/

namespace Covenant

/-- Something of which amounts can be held. -/
structure Asset where
  /-- The symbol of the currency. -/
  currencySymbol : String
  /-- The name of the token within the currency. -/
  tokenName : String
deriving DecidableEq, Inhabited

namespace Asset

/-- The ledger's own asset, whose symbol and name are empty. -/
def native : Asset := ⟨"", ""⟩

/-- Whether an asset is the ledger's own. -/
def isNative (asset : Asset) : Bool :=
  asset.currencySymbol.isEmpty && asset.tokenName.isEmpty

@[simp] theorem isNative_iff (asset : Asset) : asset.isNative = true ↔ asset = native := by
  cases asset
  simp [isNative, native]

/-- Assets are ordered by symbol, and for one symbol by name. -/
instance : Ord Asset :=
  ⟨compareLex (compareOn currencySymbol) (compareOn tokenName)⟩

instance : Std.TransOrd Asset :=
  inferInstanceAs (Std.TransCmp (compareLex (compareOn currencySymbol) (compareOn tokenName)))

instance : Std.LawfulEqOrd Asset where
  eq_of_compare {first second} same := by
    obtain ⟨sameSymbol, sameName⟩ := Ordering.then_eq_eq.mp same
    have sameSymbol := Std.LawfulEqOrd.eq_of_compare sameSymbol
    have sameName := Std.LawfulEqOrd.eq_of_compare sameName
    cases first
    cases second
    simp_all

end Asset

/-- The account of a party for an asset. -/
structure Account where
  /-- Whose account it is. -/
  owner : Party
  /-- What it holds. -/
  asset : Asset
deriving DecidableEq, Inhabited

namespace Account

/-- Accounts are ordered by owner, and for one owner by asset. -/
instance : Ord Account :=
  ⟨compareLex (compareOn owner) (compareOn asset)⟩

instance : Std.TransOrd Account :=
  inferInstanceAs (Std.TransCmp (compareLex (compareOn owner) (compareOn asset)))

instance : Std.LawfulEqOrd Account where
  eq_of_compare {first second} same := by
    obtain ⟨sameOwner, sameAsset⟩ := Ordering.then_eq_eq.mp same
    have sameOwner := Std.LawfulEqOrd.eq_of_compare sameOwner
    have sameAsset := Std.LawfulEqOrd.eq_of_compare sameAsset
    cases first
    cases second
    simp_all

end Account
end Covenant
