import Covenant.Proofs.Wire.Forms

/-!
# Kinds of canonical values

The types that have canonical texts are those of the nodes, by their family, and that
of states.  A `Canonical.Kind` names one of them, so that a law of all can be stated
once.
-/

namespace Covenant
namespace Canonical

/-- The types that have documents. -/
inductive Kind where
  | node (family : Wire.Family)
  | state

namespace Kind

/-- The values of a kind. -/
def Carrier : Kind → Type
  | node family => family.Node
  | state => State

instance : (kind : Kind) → Canonical kind.Carrier
  | node .contract => inferInstanceAs (Canonical Contract)
  | node .case => inferInstanceAs (Canonical Case)
  | node .action => inferInstanceAs (Canonical Action)
  | node .input => inferInstanceAs (Canonical Input)
  | node .value => inferInstanceAs (Canonical Value)
  | node .observation => inferInstanceAs (Canonical Observation)
  | node .party => inferInstanceAs (Canonical Party)
  | node .payee => inferInstanceAs (Canonical Payee)
  | node .asset => inferInstanceAs (Canonical Asset)
  | node .choiceId => inferInstanceAs (Canonical ChoiceId)
  | node .bound => inferInstanceAs (Canonical Bound)
  | state => inferInstanceAs (Canonical State)

theorem encode_node (family : Wire.Family) (value : (node family).Carrier) :
    encode value = family.encode value := by
  cases family <;> rfl

theorem decode_node (family : Wire.Family) (document : Json) :
    (decode document : Decoded (node family).Carrier) = family.decode document := by
  cases family <;> rfl

end Kind
end Canonical
end Covenant
