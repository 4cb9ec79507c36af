import Covenant.Wire.Schema

/-!
# Nodes of documents

A document is read by the schema.  Reading goes from the outside to the inside
and stops at the first thing that does not fit: first the form of an object is
settled, then its keys are, and then its fields are read one after the other.
-/

namespace Covenant
namespace Wire

/-- Reads the fields of a form one after the other. -/
def Arguments.read
    (readField : (field : Field) → Decoded field.content.Carrier) :
    (fields : List Field) → Decoded (Arguments fields)
  | [] => .ok ()
  | field :: rest => do
    let first ← readField field
    let others ← Arguments.read readField rest
    pure (first, others)

namespace Content

mutual

/-- Reads the content of a field.  The context names the form that has the
field. -/
def decode (context : String) : (content : Content) → Json → Decoded content.Carrier
  | .text, document => document.readText context
  | .integer, document => document.readInteger context
  | .unsigned, document => document.readUnsigned context
  | .time, document => document.readTime context
  | .nodes family, .array items => decodeItems family items
  | .nodes _, document => .error (.unexpected context "an array" document)
  | .node family, .object members =>
    match family.form? members with
    | none => .error (.unknown family.label (.object members))
    | some form =>
      match Json.Members.extraKey? form.keys members with
      | some key => .error (.unexpectedField form.name key)
      | none =>
        (Arguments.read (fun field => decodeField form.name field members) form.fields).map
          form.build.apply
  | .node family, document => family.readAtom document

/-- Reads every item of an array. -/
def decodeItems (family : Family) : List Json → Decoded (List family.Node)
  | [] => .ok []
  | item :: rest => do
    let first ← decode family.label (.node family) item
    let others ← decodeItems family rest
    pure (first :: others)

/-- Reads a field of an object, which has to have its key. -/
def decodeField (variant : String) (field : Field) :
    List (String × Json) → Decoded field.content.Carrier
  | [] => .error (.missingField variant field.key)
  | (key, document) :: rest =>
    if key = field.key then decode variant field.content document
    else decodeField variant field rest

end

end Content

/-- The node of a family that a document stands for. -/
def Family.decode (family : Family) (document : Json) : Decoded family.Node :=
  Content.decode family.label (.node family) document

end Wire

/-- The contract that a document stands for. -/
def Contract.decode : Json → Decoded Contract :=
  Wire.Family.contract.decode

/-- The case that a document stands for. -/
def Case.decode : Json → Decoded Case :=
  Wire.Family.case.decode

/-- The action that a document stands for. -/
def Action.decode : Json → Decoded Action :=
  Wire.Family.action.decode

/-- The input that a document stands for. -/
def Input.decode : Json → Decoded Input :=
  Wire.Family.input.decode

/-- The value that a document stands for. -/
def Value.decode : Json → Decoded Value :=
  Wire.Family.value.decode

/-- The observation that a document stands for. -/
def Observation.decode : Json → Decoded Observation :=
  Wire.Family.observation.decode

/-- The party that a document stands for. -/
def Party.decode : Json → Decoded Party :=
  Wire.Family.party.decode

/-- The payee that a document stands for. -/
def Payee.decode : Json → Decoded Payee :=
  Wire.Family.payee.decode

/-- The asset that a document stands for. -/
def Asset.decode : Json → Decoded Asset :=
  Wire.Family.asset.decode

/-- The choice that a document names. -/
def ChoiceId.decode : Json → Decoded ChoiceId :=
  Wire.Family.choiceId.decode

/-- The bound that a document stands for. -/
def Bound.decode : Json → Decoded Bound :=
  Wire.Family.bound.decode

end Covenant
