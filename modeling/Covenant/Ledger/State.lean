import Covenant.Contract.Account
import Covenant.Contract.Choice
import Std.Data.ExtTreeMap

/-!
# The state of a contract

While a contract runs it has a state: what its accounts hold, what has been
chosen, which values have names, and the earliest time at which it can go on.
Two states are equal if they hold the same, however they came about, and every
map lists its entries in the order of their keys.
-/

namespace Covenant

/-- The state of a running contract. -/
structure State where
  /-- The balance of every account. -/
  accounts : Std.ExtTreeMap Account Nat
  /-- The number that was picked last for every choice. -/
  choices : Std.ExtTreeMap ChoiceId Int
  /-- The value that was last given to every name. -/
  boundValues : Std.ExtTreeMap String Int
  /-- The earliest time at which the contract goes on. -/
  minTime : Int64
deriving DecidableEq

namespace State

/-- The state in which nothing is held, chosen or named. -/
def initial (minTime : Int64) : State :=
  ⟨∅, ∅, ∅, minTime⟩

/-- What an account holds; nothing, if it is not listed. -/
def balance (state : State) (account : Account) : Nat :=
  state.accounts.getD account 0

@[simp] theorem balance_initial (minTime : Int64) (account : Account) :
    (initial minTime).balance account = 0 := by
  simp [balance, initial]

/-- A change of a state. -/
inductive Update where
  | setAccount (account : Account) (amount : Nat)
  | removeAccount (account : Account)
  | setChoice (choice : ChoiceId) (chosen : Int)
  | removeChoice (choice : ChoiceId)
  | setValue (name : String) (value : Int)
  | removeValue (name : String)
  | setMinTime (minTime : Int64)
  /-- Everything is replaced by another state. -/
  | load (state : State)

namespace Update

/-- The state after a change. -/
def apply (state : State) : Update → State
  | setAccount account amount =>
    { state with accounts := state.accounts.insert account amount }
  | removeAccount account => { state with accounts := state.accounts.erase account }
  | setChoice choice chosen => { state with choices := state.choices.insert choice chosen }
  | removeChoice choice => { state with choices := state.choices.erase choice }
  | setValue name value => { state with boundValues := state.boundValues.insert name value }
  | removeValue name => { state with boundValues := state.boundValues.erase name }
  | setMinTime minTime => { state with minTime := minTime }
  | load loaded => loaded

/-- What stood where a change is made, if anything did. -/
def replaced? (state : State) : Update → Option Int
  | setAccount account _ => state.accounts[account]?.map Int.ofNat
  | removeAccount account => state.accounts[account]?.map Int.ofNat
  | setChoice choice _ => state.choices[choice]?
  | removeChoice choice => state.choices[choice]?
  | setValue name _ => state.boundValues[name]?
  | removeValue name => state.boundValues[name]?
  | setMinTime _ => some state.minTime.toInt
  | load _ => none

end Update
end State
end Covenant
