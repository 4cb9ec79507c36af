import Covenant.Contract.Basic
import Covenant.Json.Basic
import Covenant.Ledger.State
import Covenant.Text.Decimal

/-!
# Documents of contracts

Every node of a contract has one document.  Most forms become objects whose keys
have a fixed order; the forms without parts become words or truth values, and
integers become bare numbers of any length.
-/

namespace Covenant

/-- The document of an integer. -/
def Json.integer (n : Int) : Json :=
  .number (Decimal.ofInt n)

/-- The document of a party. -/
def Party.encode : Party → Json
  | address text => .object [("address", .string text)]
  | role name => .object [("role_token", .string name)]

/-- The document of a payee. -/
def Payee.encode : Payee → Json
  | account owner => .object [("account", owner.encode)]
  | party recipient => .object [("Party", recipient.encode)]

/-- The document of an asset. -/
def Asset.encode (asset : Asset) : Json :=
  .object [("currency_symbol", .string asset.currencySymbol),
    ("token_name", .string asset.tokenName)]

/-- The document of a choice's name and owner. -/
def ChoiceId.encode (choice : ChoiceId) : Json :=
  .object [("choice_name", .string choice.name), ("choice_owner", choice.owner.encode)]

/-- The document of a bound.  It goes from the largest number to the smallest. -/
def Bound.encode (bound : Bound) : Json :=
  .object [("from", .integer bound.upper.toNat), ("to", .integer bound.lower.toNat)]

/-- The key of the right side of a comparison. -/
def Comparison.key : Comparison → String
  | atLeast => "ge_than"
  | greater => "gt"
  | less => "lt"
  | atMost => "le_than"
  | equal => "equal_to"

mutual

/-- The document of a value. -/
def Value.encode : Value → Json
  | .available asset account =>
    .object [("amount_of_token", asset.encode), ("in_account", account.encode)]
  | .constant n => .integer n
  | .negate operand => .object [("negate", operand.encode)]
  | .add left right => .object [("add", left.encode), ("and", right.encode)]
  | .subtract left right => .object [("minus", left.encode), ("value", right.encode)]
  | .multiply left right => .object [("multiply", left.encode), ("times", right.encode)]
  | .divide left right => .object [("divide", left.encode), ("by", right.encode)]
  | .chosen choice => .object [("value_of_choice", choice.encode)]
  | .intervalStart => .string "time_interval_start"
  | .intervalEnd => .string "time_interval_end"
  | .use name => .object [("use_value", .string name)]
  | .cond condition ifTrue ifFalse =>
    .object [("if", condition.encode), ("then", ifTrue.encode), ("else", ifFalse.encode)]

/-- The document of an observation. -/
def Observation.encode : Observation → Json
  | .conjunction left right => .object [("both", left.encode), ("and", right.encode)]
  | .disjunction left right => .object [("either", left.encode), ("or", right.encode)]
  | .negation operand => .object [("not", operand.encode)]
  | .hasChosen choice => .object [("chose_something_for", choice.encode)]
  | .compare comparison left right =>
    .object [("value", left.encode), (comparison.key, right.encode)]
  | .truth holds => .bool holds

end

/-- The document of an action. -/
def Action.encode : Action → Json
  | deposit into party asset amount =>
    .object [("into_account", into.encode), ("party", party.encode),
      ("of_token", asset.encode), ("deposits", amount.encode)]
  | choice id bounds =>
    .object [("for_choice", id.encode), ("choose_between", .array (bounds.map Bound.encode))]
  | notify condition => .object [("notify_if", condition.encode)]

/-- The document of an input. -/
def Input.encode : Input → Json
  | deposit into party asset amount =>
    .object [("into_account", into.encode), ("input_from_party", party.encode),
      ("of_token", asset.encode), ("that_deposits", .integer amount)]
  | choice id chosen =>
    .object [("for_choice_id", id.encode), ("input_that_chooses_num", .integer chosen)]
  | notify => .string "input_notify"

mutual

/-- The document of a contract. -/
def Contract.encode : Contract → Json
  | .close => .string "close"
  | .pay source payee asset amount next =>
    .object [("from_account", source.encode), ("to", payee.encode), ("token", asset.encode),
      ("pay", amount.encode), ("then", next.encode)]
  | .choose condition ifTrue ifFalse =>
    .object [("if", condition.encode), ("then", ifTrue.encode), ("else", ifFalse.encode)]
  | .await cases timeout onTimeout =>
    .object [("when", .array (Case.encodeAll cases)), ("timeout", .integer timeout.toInt),
      ("timeout_continuation", onTimeout.encode)]
  | .bind name value next =>
    .object [("let", .string name), ("be", value.encode), ("then", next.encode)]
  | .assert condition next => .object [("assert", condition.encode), ("then", next.encode)]

/-- The document of a case. -/
def Case.encode : Case → Json
  | .mk action next => .object [("case", action.encode), ("then", next.encode)]

/-- The documents of all cases. -/
def Case.encodeAll : List Case → List Json
  | [] => []
  | first :: rest => first.encode :: Case.encodeAll rest

end

theorem Case.encodeAll_eq_map (cases : List Case) :
    Case.encodeAll cases = cases.map Case.encode := by
  induction cases with
  | nil => rfl
  | cons first rest ih => simp [Case.encodeAll, ih]

namespace State

/-- The document of an account and its balance. -/
def encodeBalance (account : Account) (amount : Nat) : Json :=
  .array [.array [account.owner.encode, account.asset.encode], .integer amount]

/-- The document of a choice and the number that was picked. -/
def encodeChoice (choice : ChoiceId) (chosen : Int) : Json :=
  .array [choice.encode, .integer chosen]

/-- The document of a name and its value. -/
def encodeBinding (name : String) (value : Int) : Json :=
  .array [.string name, .integer value]

/-- The document of a state.  The entries of every map are in the order of their
keys. -/
def encode (state : State) : Json :=
  .object [
    ("accounts", .array (state.accounts.toList.map fun entry => encodeBalance entry.1 entry.2)),
    ("choices", .array (state.choices.toList.map fun entry => encodeChoice entry.1 entry.2)),
    ("boundValues",
      .array (state.boundValues.toList.map fun entry => encodeBinding entry.1 entry.2)),
    ("minTime", .integer state.minTime.toInt)]

end State
end Covenant
