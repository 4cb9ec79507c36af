import Covenant.Wire.Decode

/-!
# States of documents

The document of a state lists the entries of its maps in arrays.  They may come
in any order, but no key may come twice.
-/

namespace Covenant
namespace State

/-- Adds the account of an entry. -/
def addAccount
    (accounts : Std.ExtTreeMap Account Nat)
    (entry : Json) :
    Decoded (Std.ExtTreeMap Account Nat) := do
  let (key, amount) ← entry.readPair "accounts"
  let (owner, asset) ← key.readPair "accounts"
  let owner ← Party.decode owner
  let asset ← Asset.decode asset
  let amount ← amount.readNatural "accounts"
  if Account.mk owner asset ∈ accounts then .error (.duplicateKey "accounts" key.describe)
  else pure (accounts.insert ⟨owner, asset⟩ amount)

/-- Adds the choice of an entry. -/
def addChoice
    (choices : Std.ExtTreeMap ChoiceId Int)
    (entry : Json) :
    Decoded (Std.ExtTreeMap ChoiceId Int) := do
  let (key, chosen) ← entry.readPair "choices"
  let choice ← ChoiceId.decode key
  if choice ∈ choices then .error (.duplicateKey "choices" key.describe)
  else
    let chosen ← chosen.readInteger "choices"
    pure (choices.insert choice chosen)

/-- Adds the name of an entry. -/
def addBinding
    (boundValues : Std.ExtTreeMap String Int)
    (entry : Json) :
    Decoded (Std.ExtTreeMap String Int) := do
  let (key, value) ← entry.readPair "boundValues"
  let name ← key.readText "boundValues"
  if name ∈ boundValues then .error (.duplicateKey "boundValues" name)
  else
    let value ← value.readInteger "boundValues"
    pure (boundValues.insert name value)

/-- The keys of the document of a state. -/
def documentKeys : List String :=
  ["accounts", "choices", "boundValues", "minTime"]

/-- The entries that the document of a state lists under a key. -/
def readEntries (key : String) (members : Json.Members) : Decoded (List Json) := do
  let listed ← members.read "State" key
  listed.readArray "State"

/-- The state that the members of an object stand for. -/
def decodeMembers (members : Json.Members) : Decoded State :=
  match members.extraKey? documentKeys with
  | some key => .error (.unexpectedField "State" key)
  | none => do
    let accounts ← readEntries "accounts" members
    let accounts ← accounts.foldlM addAccount ∅
    let choices ← readEntries "choices" members
    let choices ← choices.foldlM addChoice ∅
    let boundValues ← readEntries "boundValues" members
    let boundValues ← boundValues.foldlM addBinding ∅
    let minTime ← members.read "State" "minTime"
    let minTime ← minTime.readTime "State"
    pure ⟨accounts, choices, boundValues, minTime⟩

/-- The state that a document stands for. -/
def decode : Json → Decoded State
  | .object members => decodeMembers members
  | found => .error (.unexpected "State" "an object" found)

end State
end Covenant
