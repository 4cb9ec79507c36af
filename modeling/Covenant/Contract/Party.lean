/-!
# Parties and payees

A party takes part in a contract under a fixed ledger address or under a role
that can change hands.
-/

namespace Covenant

/-- A participant of a contract. -/
inductive Party where
  /-- A fixed address on the ledger. -/
  | address (text : String)
  /-- Whoever holds the token of a role. -/
  | role (name : String)
deriving DecidableEq, Inhabited

namespace Party

/-- The name of a party's form. -/
def kind : Party → String
  | address _ => "Address"
  | role _ => "Role"

/-- Whether a party is a role. -/
def isRole : Party → Bool
  | address _ => false
  | role _ => true

/-- The address or the role name of a party. -/
def text : Party → String
  | address text => text
  | role name => name

/-- Addresses come before roles, and within a form the text decides. -/
instance : Ord Party :=
  ⟨compareLex (compareOn isRole) (compareOn text)⟩

instance : Std.TransOrd Party :=
  inferInstanceAs (Std.TransCmp (compareLex (compareOn isRole) (compareOn text)))

instance : Std.LawfulEqOrd Party where
  eq_of_compare {first second} same := by
    obtain ⟨sameForm, sameText⟩ := Ordering.then_eq_eq.mp same
    have sameForm := Std.LawfulEqOrd.eq_of_compare sameForm
    have sameText := Std.LawfulEqOrd.eq_of_compare sameText
    cases first <;> cases second <;> simp_all [isRole, text]

/-- The address that has to be checked before a party can be relied on; roles
have none. -/
def addressToCheck? : Party → Option String
  | address text => some text
  | role _ => none

/-- Whether a party is valid under a check of addresses; roles always are. -/
def isValid (check : String → Bool) (party : Party) : Bool :=
  party.addressToCheck?.all check

@[simp] theorem isValid_address (check : String → Bool) (text : String) :
    isValid check (address text) = check text := rfl

@[simp] theorem isValid_role (check : String → Bool) (name : String) :
    isValid check (role name) = true := rfl

end Party

/-- Where a payment goes. -/
inductive Payee where
  /-- The internal account of a party. -/
  | account (owner : Party)
  /-- The party itself, out of the contract. -/
  | party (recipient : Party)
deriving DecidableEq, Inhabited

/-- The name of a payee's form. -/
def Payee.kind : Payee → String
  | account _ => "Account"
  | party _ => "Party"

end Covenant
