import Covenant.Json.Compact
import Covenant.Json.Document
import Covenant.Wire.Snapshot

/-!
# Canonical texts

A type is canonical if its values have documents and can be read back from them.
The canonical text of a value is the compact text of its document.
-/

namespace Covenant

/-- A type whose values have documents. -/
class Canonical (α : Type) where
  /-- The document of a value. -/
  encode : α → Json
  /-- The value that a document stands for. -/
  decode : Json → Decoded α

instance : Canonical Contract := ⟨Contract.encode, Contract.decode⟩

instance : Canonical Case := ⟨Case.encode, Case.decode⟩

instance : Canonical Action := ⟨Action.encode, Action.decode⟩

instance : Canonical Input := ⟨Input.encode, Input.decode⟩

instance : Canonical Value := ⟨Value.encode, Value.decode⟩

instance : Canonical Observation := ⟨Observation.encode, Observation.decode⟩

instance : Canonical Party := ⟨Party.encode, Party.decode⟩

instance : Canonical Payee := ⟨Payee.encode, Payee.decode⟩

instance : Canonical Asset := ⟨Asset.encode, Asset.decode⟩

instance : Canonical ChoiceId := ⟨ChoiceId.encode, ChoiceId.decode⟩

instance : Canonical Bound := ⟨Bound.encode, Bound.decode⟩

instance : Canonical State := ⟨State.encode, State.decode⟩

/-- The canonical text of a value. -/
def toCanonicalString {α : Type} [Canonical α] (node : α) : String :=
  (Canonical.encode node).compact

/-- The value that a text stands for. -/
def fromCanonicalString {α : Type} [Canonical α] (text : String) : Decoded α :=
  match Json.parse? text with
  | some document => Canonical.decode document
  | none => .error .malformed

end Covenant
