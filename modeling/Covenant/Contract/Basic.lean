import Covenant.Contract.Action

/-!
# Contracts

A contract is a finite tree in which every step leads to further contracts and
every path ends with `Contract.close`.
-/

namespace Covenant

mutual

/-- A contract. -/
inductive Contract where
  /-- The contract is over, and what its accounts hold is paid out. -/
  | close
  /-- A payment out of the account of a party. -/
  | pay (source : Party) (payee : Payee) (asset : Asset) (amount : Value) (next : Contract)
  | choose (condition : Observation) (ifTrue ifFalse : Contract)
  /-- Waits for one of the actions until a time. -/
  | await (cases : List Case) (timeout : Int64) (onTimeout : Contract)
  /-- Gives a value to a name. -/
  | bind (name : String) (value : Value) (next : Contract)
  /-- Goes on after a warning if the condition does not hold. -/
  | assert (condition : Observation) (next : Contract)

/-- An action that a contract waits for, and what follows it. -/
inductive Case where
  | mk (action : Action) (next : Contract)

end

instance : Inhabited Contract := ⟨.close⟩

instance : Inhabited Case := ⟨.mk default .close⟩

namespace Case

/-- What is waited for. -/
def action : Case → Action
  | mk action _ => action

/-- What follows. -/
def next : Case → Contract
  | mk _ next => next

@[simp] theorem action_mk (action : Action) (next : Contract) : (mk action next).action = action :=
  rfl

@[simp] theorem next_mk (action : Action) (next : Contract) : (mk action next).next = next := rfl

end Case

namespace Contract

/-- The name of a contract's form. -/
def kind : Contract → String
  | close => "Close"
  | pay .. => "Pay"
  | choose .. => "If"
  | await .. => "When"
  | bind .. => "Let"
  | assert .. => "Assert"

/-- The contracts that a contract leads to: of its cases in their order, and then
the one that follows the timeout. -/
def continuations : Contract → List Contract
  | close => []
  | pay _ _ _ _ next => [next]
  | choose _ ifTrue ifFalse => [ifTrue, ifFalse]
  | await cases _ onTimeout => cases.map Case.next ++ [onTimeout]
  | bind _ _ next => [next]
  | assert _ next => [next]

/-- What lies on a path from a contract, which is itself the first: every number
selects one of the continuations, and `none` stands where there is none. -/
def walk (contract : Contract) : List Nat → List (Option Contract)
  | [] => [some contract]
  | index :: path =>
    some contract ::
      match contract.continuations[index]? with
      | some next => next.walk path
      | none => [none]

end Contract

mutual

/-- The forms of a contract and of everything that it leads to, as in
`When(Pay(Close),Close)`. -/
def Contract.outline : Contract → String
  | .close => "Close"
  | .pay _ _ _ _ next => "Pay(" ++ next.outline ++ ")"
  | .choose _ ifTrue ifFalse => "If(" ++ ifTrue.outline ++ "," ++ ifFalse.outline ++ ")"
  | .await cases _ onTimeout => "When(" ++ Case.outlines cases ++ onTimeout.outline ++ ")"
  | .bind _ _ next => "Let(" ++ next.outline ++ ")"
  | .assert _ next => "Assert(" ++ next.outline ++ ")"

/-- The outlines of what follows the cases, each with a comma behind it. -/
def Case.outlines : List Case → String
  | [] => ""
  | .mk _ next :: rest => next.outline ++ "," ++ Case.outlines rest

end

mutual

/-- Whether two contracts are the same. -/
def Contract.same : Contract → Contract → Bool
  | .close, .close => true
  | .pay source payee asset amount next, .pay source' payee' asset' amount' next' =>
    source = source' && payee = payee' && asset = asset' && amount = amount' && next.same next'
  | .choose condition ifTrue ifFalse, .choose condition' ifTrue' ifFalse' =>
    condition = condition' && ifTrue.same ifTrue' && ifFalse.same ifFalse'
  | .await cases timeout onTimeout, .await cases' timeout' onTimeout' =>
    Case.sameAll cases cases' && timeout = timeout' && onTimeout.same onTimeout'
  | .bind name value next, .bind name' value' next' =>
    name = name' && value = value' && next.same next'
  | .assert condition next, .assert condition' next' =>
    condition = condition' && next.same next'
  | _, _ => false

/-- Whether two lists of cases are the same. -/
def Case.sameAll : List Case → List Case → Bool
  | [], [] => true
  | .mk action next :: rest, .mk action' next' :: rest' =>
    action = action' && next.same next' && Case.sameAll rest rest'
  | _, _ => false

end

mutual

theorem Contract.same_iff :
    ∀ first second : Contract, first.same second = true ↔ first = second
  | .close, second => by cases second <;> simp [Contract.same]
  | .pay _ _ _ _ next, second => by
    cases second <;> simp [Contract.same, Contract.same_iff next, and_assoc]
  | .choose _ ifTrue ifFalse, second => by
    cases second <;>
      simp [Contract.same, Contract.same_iff ifTrue, Contract.same_iff ifFalse, and_assoc]
  | .await cases _ onTimeout, second => by
    cases second <;>
      simp [Contract.same, Case.sameAll_iff cases, Contract.same_iff onTimeout, and_assoc]
  | .bind _ _ next, second => by
    cases second <;> simp [Contract.same, Contract.same_iff next, and_assoc]
  | .assert _ next, second => by
    cases second <;> simp [Contract.same, Contract.same_iff next]

theorem Case.sameAll_iff :
    ∀ first second : List Case, Case.sameAll first second = true ↔ first = second
  | [], second => by cases second <;> simp [Case.sameAll]
  | .mk _ next :: rest, second => by
    rcases second with _ | ⟨⟨_, _⟩, _⟩ <;>
      simp [Case.sameAll, Contract.same_iff next, Case.sameAll_iff rest]

end

instance : DecidableEq Contract := fun first second =>
  decidable_of_iff _ (Contract.same_iff first second)

instance : DecidableEq Case
  | .mk action next, .mk action' next' =>
    decidable_of_iff (action = action' ∧ next = next') (by simp)

end Covenant
