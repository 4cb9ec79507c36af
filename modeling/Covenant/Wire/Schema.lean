import Covenant.Wire.Encode
import Covenant.Wire.Scalar

/-!
# The schema of the format

The nodes of a contract fall into families, and the objects of a family into
forms.  A form is recognised by its tags: the first form counts of which every
tag is a key of the object.  It then has to have exactly the keys of its fields,
and the schema lists these in the order in which they are read.
-/

namespace Covenant
namespace Wire

/-- The families of nodes. -/
inductive Family where
  | contract
  | case
  | action
  | input
  | value
  | observation
  | party
  | payee
  | asset
  | choiceId
  | bound
deriving DecidableEq, Inhabited

/-- The nodes of a family. -/
@[reducible] def Family.Node : Family → Type
  | contract => Contract
  | case => Case
  | action => Action
  | input => Input
  | value => Value
  | observation => Observation
  | party => Party
  | payee => Payee
  | asset => Asset
  | choiceId => ChoiceId
  | bound => Bound

/-- What a field holds. -/
inductive Content where
  | text
  | integer
  /-- An integer that fits into 64 bits without a sign. -/
  | unsigned
  /-- An integer that fits into 64 bits with a sign. -/
  | time
  | node (family : Family)
  /-- An array of nodes. -/
  | nodes (family : Family)
deriving DecidableEq, Inhabited

/-- What the content of a field is read as. -/
@[reducible] def Content.Carrier : Content → Type
  | text => String
  | integer => Int
  | unsigned => UInt64
  | time => Int64
  | node family => family.Node
  | nodes family => List family.Node

/-- A key of a form and what it holds. -/
structure Field where
  key : String
  content : Content
deriving DecidableEq, Inhabited

/-- What the fields of a form are read as, one after the other. -/
@[reducible] def Arguments : List Field → Type
  | [] => Unit
  | field :: rest => field.content.Carrier × Arguments rest

/-- A function of what the fields of a form are read as. -/
@[reducible] def Builder (α : Type) : List Field → Type
  | [] => α
  | field :: rest => field.content.Carrier → Builder α rest

namespace Builder

/-- Applies a function of several fields to all of them. -/
def apply {α : Type} : {fields : List Field} → Builder α fields → Arguments fields → α
  | [], node, _ => node
  | _ :: _, build, (first, rest) => apply (build first) rest

end Builder

/-- A form of an object. -/
structure Form (α : Type) where
  /-- What the form is called. -/
  name : String
  /-- The keys by which it is recognised. -/
  tags : List String
  /-- Its fields, in the order in which they are read. -/
  fields : List Field
  /-- The node that the fields make up. -/
  build : Builder α fields

namespace Form

/-- The keys of a form. -/
def keys {α : Type} (form : Form α) : List String :=
  form.fields.map Field.key

/-- Whether every tag of a form is a key of an object. -/
def admits {α : Type} (form : Form α) (members : Json.Members) : Bool :=
  form.tags.all members.hasKey

end Form

/-- The forms of contracts. -/
def contractForms : List (Form Contract) := [
  ⟨"Let", ["let"],
    [⟨"let", .text⟩, ⟨"be", .node .value⟩, ⟨"then", .node .contract⟩],
    Contract.bind⟩,
  ⟨"If", ["if"],
    [⟨"if", .node .observation⟩, ⟨"then", .node .contract⟩, ⟨"else", .node .contract⟩],
    Contract.choose⟩,
  ⟨"Assert", ["assert"],
    [⟨"assert", .node .observation⟩, ⟨"then", .node .contract⟩],
    Contract.assert⟩,
  ⟨"Pay", ["from_account"],
    [⟨"from_account", .node .party⟩, ⟨"to", .node .payee⟩, ⟨"token", .node .asset⟩,
      ⟨"pay", .node .value⟩, ⟨"then", .node .contract⟩],
    Contract.pay⟩,
  ⟨"When", ["when"],
    [⟨"when", .nodes .case⟩, ⟨"timeout", .time⟩, ⟨"timeout_continuation", .node .contract⟩],
    Contract.await⟩]

/-- The form of cases. -/
def caseForms : List (Form Case) := [
  ⟨"Case", [], [⟨"case", .node .action⟩, ⟨"then", .node .contract⟩], Case.mk⟩]

/-- The forms of actions. -/
def actionForms : List (Form Action) := [
  ⟨"Deposit", ["into_account"],
    [⟨"into_account", .node .party⟩, ⟨"party", .node .party⟩, ⟨"of_token", .node .asset⟩,
      ⟨"deposits", .node .value⟩],
    Action.deposit⟩,
  ⟨"Choice", ["for_choice"],
    [⟨"choose_between", .nodes .bound⟩, ⟨"for_choice", .node .choiceId⟩],
    fun bounds choice => Action.choice choice bounds⟩,
  ⟨"Notify", ["notify_if"], [⟨"notify_if", .node .observation⟩], Action.notify⟩]

/-- The forms of inputs. -/
def inputForms : List (Form Input) := [
  ⟨"IDeposit", ["input_from_party"],
    [⟨"into_account", .node .party⟩, ⟨"input_from_party", .node .party⟩,
      ⟨"of_token", .node .asset⟩, ⟨"that_deposits", .integer⟩],
    Input.deposit⟩,
  ⟨"IChoice", ["for_choice_id"],
    [⟨"for_choice_id", .node .choiceId⟩, ⟨"input_that_chooses_num", .integer⟩],
    Input.choice⟩]

/-- A form of values with two operands. -/
def operationForm
    (name left right : String)
    (build : Value → Value → Value) :
    Form Value :=
  ⟨name, [left], [⟨left, .node .value⟩, ⟨right, .node .value⟩], build⟩

/-- The forms of values. -/
def valueForms : List (Form Value) := [
  ⟨"AvailableMoney", ["amount_of_token"],
    [⟨"amount_of_token", .node .asset⟩, ⟨"in_account", .node .party⟩],
    Value.available⟩,
  ⟨"ChoiceValue", ["value_of_choice"], [⟨"value_of_choice", .node .choiceId⟩], Value.chosen⟩,
  ⟨"UseValue", ["use_value"], [⟨"use_value", .text⟩], Value.use⟩,
  ⟨"NegValue", ["negate"], [⟨"negate", .node .value⟩], Value.negate⟩,
  operationForm "AddValue" "add" "and" Value.add,
  operationForm "SubValue" "minus" "value" Value.subtract,
  operationForm "MulValue" "multiply" "times" Value.multiply,
  operationForm "DivValue" "divide" "by" Value.divide,
  ⟨"Cond", ["if"],
    [⟨"if", .node .observation⟩, ⟨"then", .node .value⟩, ⟨"else", .node .value⟩],
    Value.cond⟩]

/-- The form of a comparison. -/
def comparisonForm (comparison : Comparison) : Form Observation :=
  ⟨comparison.kind, ["value", comparison.key],
    [⟨"value", .node .value⟩, ⟨comparison.key, .node .value⟩],
    Observation.compare comparison⟩

/-- The forms of observations. -/
def observationForms : List (Form Observation) := [
  ⟨"AndObs", ["both"],
    [⟨"both", .node .observation⟩, ⟨"and", .node .observation⟩],
    Observation.conjunction⟩,
  ⟨"OrObs", ["either"],
    [⟨"either", .node .observation⟩, ⟨"or", .node .observation⟩],
    Observation.disjunction⟩,
  ⟨"NotObs", ["not"], [⟨"not", .node .observation⟩], Observation.negation⟩,
  ⟨"ChoseSomething", ["chose_something_for"],
    [⟨"chose_something_for", .node .choiceId⟩],
    Observation.hasChosen⟩,
  comparisonForm .atLeast,
  comparisonForm .greater,
  comparisonForm .less,
  comparisonForm .atMost,
  comparisonForm .equal]

/-- The forms of parties. -/
def partyForms : List (Form Party) := [
  ⟨"Role", ["role_token"], [⟨"role_token", .text⟩], Party.role⟩,
  ⟨"Address", ["address"], [⟨"address", .text⟩], Party.address⟩]

/-- The forms of payees. -/
def payeeForms : List (Form Payee) := [
  ⟨"Party", ["Party"], [⟨"Party", .node .party⟩], Payee.party⟩,
  ⟨"Account", ["account"], [⟨"account", .node .party⟩], Payee.account⟩]

/-- The form of assets. -/
def assetForms : List (Form Asset) := [
  ⟨"Token", [], [⟨"currency_symbol", .text⟩, ⟨"token_name", .text⟩], Asset.mk⟩]

/-- The form of choice names. -/
def choiceIdForms : List (Form ChoiceId) := [
  ⟨"ChoiceId", [], [⟨"choice_name", .text⟩, ⟨"choice_owner", .node .party⟩], ChoiceId.mk⟩]

/-- The form of bounds, which go from the largest number to the smallest. -/
def boundForms : List (Form Bound) := [
  ⟨"Bound", [], [⟨"from", .unsigned⟩, ⟨"to", .unsigned⟩], Bound.mk⟩]

namespace Family

/-- What a family is called in errors. -/
def label : Family → String
  | contract => "contract"
  | case => "Case"
  | action => "action"
  | input => "input"
  | value => "value"
  | observation => "observation"
  | party => "party"
  | payee => "payee"
  | asset => "Token"
  | choiceId => "ChoiceId"
  | bound => "Bound"

/-- The forms of a family, in the order in which they are tried. -/
def forms : (family : Family) → List (Form family.Node)
  | contract => contractForms
  | case => caseForms
  | action => actionForms
  | input => inputForms
  | value => valueForms
  | observation => observationForms
  | party => partyForms
  | payee => payeeForms
  | asset => assetForms
  | choiceId => choiceIdForms
  | bound => boundForms

/-- The form of an object, as far as its keys tell. -/
def form? (family : Family) (members : Json.Members) : Option (Form family.Node) :=
  family.forms.find? fun form => form.admits members

/-- Whether a family has nodes that are no objects. -/
def hasAtoms : Family → Bool
  | contract | input | value | observation => true
  | _ => false

/-- The node of a document that is no object. -/
def readAtom : (family : Family) → Json → Decoded family.Node
  | contract, .string "close" => .ok .close
  | input, .string "input_notify" => .ok .notify
  | value, .string "time_interval_start" => .ok .intervalStart
  | value, .string "time_interval_end" => .ok .intervalEnd
  | value, .number literal => (Json.readInteger "Constant" (.number literal)).map .constant
  | observation, .bool holds => .ok (.truth holds)
  | family, found =>
    .error (if family.hasAtoms then .unknown family.label found
      else .unexpected family.label "an object" found)

end Family
end Wire
end Covenant
