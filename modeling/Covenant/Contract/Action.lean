import Covenant.Contract.Value

/-!
# Actions and inputs

A contract waits for actions.  An input is what a transaction brings, with every
amount already a number.
-/

namespace Covenant

/-- Something that a contract can wait for. -/
inductive Action where
  /-- A party puts an amount of an asset into an account. -/
  | deposit (into party : Party) (asset : Asset) (amount : Value)
  /-- A choice is made within one of the bounds. -/
  | choice (id : ChoiceId) (bounds : List Bound)
  /-- An observation holds. -/
  | notify (condition : Observation)
deriving DecidableEq, Inhabited

/-- The name of an action's form. -/
def Action.kind : Action → String
  | deposit .. => "Deposit"
  | choice .. => "Choice"
  | notify _ => "Notify"

/-- What a transaction brings to a contract. -/
inductive Input where
  /-- A party puts an amount of an asset into an account. -/
  | deposit (into party : Party) (asset : Asset) (amount : Int)
  /-- A number is picked. -/
  | choice (id : ChoiceId) (chosen : Int)
  | notify
deriving DecidableEq, Inhabited

/-- The name of an input's form. -/
def Input.kind : Input → String
  | deposit .. => "IDeposit"
  | choice .. => "IChoice"
  | notify => "INotify"

end Covenant
