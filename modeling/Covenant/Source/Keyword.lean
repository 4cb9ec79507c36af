/-!
# Keywords

The words of the contract language.  A word is a keyword only in exactly this
spelling.
-/

namespace Covenant

/-- The words of the language, by the part of a contract that they build. -/
def keywords : List String := [
  -- contracts
  "Let", "When", "If", "Pay", "Assert", "Close",
  -- actions and what they are made of
  "Deposit", "Notify", "Choice", "ChoiceId", "Bound", "Case",
  -- parties, tokens and payees
  "Role", "Address", "Token", "Account", "Party",
  -- values
  "AvailableMoney", "Constant", "NegValue", "AddValue", "SubValue", "MulValue", "DivValue",
  "ChoiceValue", "TimeIntervalValue", "TimeIntervalStart", "TimeIntervalEnd", "UseValue",
  "Cond",
  -- observations
  "AndObs", "OrObs", "NotObs", "ChoseSomething", "ValueGE", "ValueGT", "ValueLE", "ValueLT",
  "ValueEQ", "TrueObs", "FalseObs"]

/-- Whether a word is one of the language's own. -/
def isKeyword (word : String) : Bool :=
  keywords.contains word

@[simp] theorem isKeyword_iff (word : String) :
    isKeyword word = true ↔ word ∈ keywords := by
  simp [isKeyword]

end Covenant
