import Covenant.Contract.Account
import Covenant.Contract.Choice

/-!
# Values and observations

A value is a term that stands for an integer, an observation one that stands for
a truth value.  Each kind of term may hold terms of the other kind.
-/

namespace Covenant

/-- How an observation compares two values. -/
inductive Comparison where
  | atLeast
  | greater
  | less
  | atMost
  | equal
deriving DecidableEq, Inhabited

/-- The name of an observation with this comparison. -/
def Comparison.kind : Comparison → String
  | atLeast => "ValueGE"
  | greater => "ValueGT"
  | less => "ValueLT"
  | atMost => "ValueLE"
  | equal => "ValueEQ"

mutual

/-- A term for an integer. -/
inductive Value where
  /-- The amount of an asset in the account of a party. -/
  | available (asset : Asset) (account : Party)
  | constant (n : Int)
  | negate (operand : Value)
  | add (left right : Value)
  | subtract (left right : Value)
  | multiply (left right : Value)
  /-- A quotient, truncated toward zero. -/
  | divide (left right : Value)
  /-- The number that was picked last, or zero. -/
  | chosen (choice : ChoiceId)
  /-- The start of the interval in which the contract is evaluated. -/
  | intervalStart
  /-- The end of that interval. -/
  | intervalEnd
  /-- The value that was last given to a name, or zero. -/
  | use (name : String)
  | cond (condition : Observation) (ifTrue ifFalse : Value)

/-- A term for a truth value. -/
inductive Observation where
  | conjunction (left right : Observation)
  | disjunction (left right : Observation)
  | negation (operand : Observation)
  /-- Whether a choice has been made. -/
  | hasChosen (choice : ChoiceId)
  | compare (comparison : Comparison) (left right : Value)
  | truth (holds : Bool)

end

deriving instance DecidableEq for Value, Observation

instance : Inhabited Value := ⟨.constant 0⟩

instance : Inhabited Observation := ⟨.truth true⟩

/-- The name of a value's form. -/
def Value.kind : Value → String
  | available .. => "AvailableMoney"
  | constant _ => "Constant"
  | negate _ => "NegValue"
  | add .. => "AddValue"
  | subtract .. => "SubValue"
  | multiply .. => "MulValue"
  | divide .. => "DivValue"
  | chosen _ => "ChoiceValue"
  | intervalStart => "TimeIntervalStart"
  | intervalEnd => "TimeIntervalEnd"
  | use _ => "UseValue"
  | cond .. => "Cond"

/-- The name of an observation's form. -/
def Observation.kind : Observation → String
  | conjunction .. => "AndObs"
  | disjunction .. => "OrObs"
  | negation _ => "NotObs"
  | hasChosen _ => "ChoseSomething"
  | compare comparison .. => comparison.kind
  | truth true => "TrueObs"
  | truth false => "FalseObs"

end Covenant
