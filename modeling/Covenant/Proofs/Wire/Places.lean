import Covenant.Proofs.Json.Path
import Covenant.Proofs.Wire.Kind

/-!
# Places of nodes

A place of a node can be looked at from two sides.  In a document it is a path that leads
through the fields of forms, and through the items of arrays of nodes, to the document of
a node (`Content.Reaches`).  In a node it is a hole: the node with one of the nodes in it
left open, which any other node of the same family can fill (`Hole.fill`).  Both sides
speak of the same path (`Hole.path`).
-/

namespace Covenant
namespace Wire

/-- In a document that is read as some content, a path leads to the document of a node
of the inner family. -/
inductive Content.Reaches (inner : Family) : Content → Json → Json.Path → Prop
  | here (document : Json) : Reaches inner (.node inner) document []
  | item
      {family : Family} {items : List Json} {index : Nat} {item : Json} {path : Json.Path} :
      items[index]? = some item →
      Reaches inner (.node family) item path →
      Reaches inner (.nodes family) (.array items) (.index index :: path)
  | field
      {family : Family} {form : Form family.Node} {members : Json.Members} (field : Field)
      {part : Json} {path : Json.Path} :
      family.form? members = some form →
      field ∈ form.fields →
      members.lookup field.key = some part →
      Reaches inner field.content part path →
      Reaches inner (.node family) (.object members) (.key field.key :: path)

/-- The arguments of a form with another argument for one of its fields. -/
def Arguments.set
    (field : Field)
    (argument : field.content.Carrier) :
    (fields : List Field) → Arguments fields → Arguments fields
  | [], _ => ()
  | other :: rest, (first, others) =>
    if same : field = other then (same ▸ argument, others)
    else (first, Arguments.set field argument rest others)

/-- What a field can hold, with one node of the inner family in it left open. -/
inductive Hole (inner : Family) : Content → Type
  | here : Hole inner (.node inner)
  /-- The hole is in one of several nodes, with some before and some behind it. -/
  | item {family : Family} (before behind : List family.Node) :
      Hole inner (.node family) →
      Hole inner (.nodes family)
  /-- The hole is in the argument of a form for one of its fields.  Of the given
  arguments that one does not matter. -/
  | argument {family : Family} (form : Form family.Node) (arguments : Arguments form.fields)
      (field : Field) :
      form ∈ family.forms →
      field ∈ form.fields →
      Hole inner field.content →
      Hole inner (.node family)

namespace Hole

variable {inner : Family}

/-- What results when a node is put into the hole. -/
def fill : {content : Content} → Hole inner content → inner.Node → content.Carrier
  | _, here, node => node
  | _, item before behind inside, node => before ++ inside.fill node :: behind
  | _, argument form arguments field _ _ inside, node =>
    form.build.apply (Arguments.set field (inside.fill node) form.fields arguments)

/-- Where the document of a node that is put into the hole stands. -/
def path : {content : Content} → Hole inner content → Json.Path
  | _, here => []
  | _, item before _ inside => .index before.length :: inside.path
  | _, argument _ _ field _ _ inside => .key field.key :: inside.path

end Hole

namespace Arguments

@[simp] theorem set_cons_self
    (field : Field)
    (argument first : field.content.Carrier)
    (rest : List Field)
    (others : Arguments rest) :
    set field argument (field :: rest) (first, others) = (argument, others) := by
  simp [set]

theorem set_cons_of_ne
    {field other : Field}
    (different : field ≠ other)
    (argument : field.content.Carrier)
    (first : other.content.Carrier)
    (rest : List Field)
    (others : Arguments rest) :
    set field argument (other :: rest) (first, others) =
      (first, set field argument rest others) := by
  simp [set, different]

/-- A property of all arguments holds of the one for a given field, which is the one that
may be set there without any change. -/
theorem Each.exists_set_eq
    {holds : (field : Field) → field.content.Carrier → Prop}
    {fields : List Field}
    {arguments : Arguments fields}
    (each : Each holds fields arguments)
    {field : Field}
    (listed : field ∈ fields) :
    ∃ argument, holds field argument ∧ set field argument fields arguments = arguments := by
  induction fields with
  | nil => simp at listed
  | cons first rest inductionHypothesis =>
      obtain ⟨argument, others⟩ := arguments
      obtain ⟨holdsFirst, each⟩ := each
      by_cases same : field = first
      · subst same
        exact ⟨argument, holdsFirst, set_cons_self ..⟩
      · have behind := (List.mem_cons.mp listed).resolve_left same
        obtain ⟨found, holdsFound, unchanged⟩ := inductionHypothesis each behind
        refine ⟨found, holdsFound, ?_⟩
        rw [set_cons_of_ne same, unchanged]

theorem Each.imp_of_mem
    {holds holds' : (field : Field) → field.content.Carrier → Prop}
    {fields : List Field}
    {arguments : Arguments fields}
    (each : Each holds fields arguments)
    (imply : ∀ field ∈ fields, ∀ argument, holds field argument → holds' field argument) :
    Each holds' fields arguments := by
  induction fields with
  | nil => trivial
  | cons first rest inductionHypothesis =>
      obtain ⟨implyFirst, implyRest⟩ := List.forall_mem_cons.mp imply
      exact ⟨implyFirst _ each.1, inductionHypothesis each.2 implyRest⟩

/-- If only one field is read anew, the arguments differ only there, and reading fails
only if reading that field fails. -/
theorem read_eq_map_set
    {readField : (field : Field) → Decoded field.content.Carrier}
    {fields : List Field}
    (distinct : fields.Nodup)
    {arguments : Arguments fields}
    {field : Field}
    (listed : field ∈ fields)
    (others : Each (fun other argument => other ≠ field → readField other = .ok argument)
      fields arguments) :
    Arguments.read readField fields =
      (readField field).map fun argument => set field argument fields arguments := by
  induction fields with
  | nil => simp at listed
  | cons first rest inductionHypothesis =>
      obtain ⟨absent, distinct⟩ := List.nodup_cons.mp distinct
      obtain ⟨argument, arguments⟩ := arguments
      obtain ⟨readFirst, others⟩ := others
      by_cases same : field = first
      · subst same
        have readRest : Arguments.read readField rest = .ok arguments := by
          refine read_eq_ok_iff.mpr (others.imp_of_mem fun other isOther argument read => ?_)
          exact read fun same => absent (same ▸ isOther)
        rw [Arguments.read, readRest]
        cases readField field <;> simp [Except.map, Bind.bind, Except.bind, pure, Except.pure]
      · have behind := (List.mem_cons.mp listed).resolve_left same
        rw [Arguments.read, readFirst (Ne.symm same), inductionHypothesis distinct behind others]
        cases readField field <;>
          simp [Except.map, Bind.bind, Except.bind, pure, Except.pure, set_cons_of_ne same]

end Arguments
end Wire

/-- In the document of a state, a path leads to the document of a node of the inner
family: through the owner or the asset of an account, or through a choice. -/
inductive State.Reaches (inner : Wire.Family) (document : Json) : Json.Path → Prop
  | owner {index : Nat} {part : Json} {path : Json.Path} :
      document.part? [.key "accounts", .index index, .index 0, .index 0] = some part →
      Wire.Content.Reaches inner (.node .party) part path →
      Reaches inner document ([.key "accounts", .index index, .index 0, .index 0] ++ path)
  | asset {index : Nat} {part : Json} {path : Json.Path} :
      document.part? [.key "accounts", .index index, .index 0, .index 1] = some part →
      Wire.Content.Reaches inner (.node .asset) part path →
      Reaches inner document ([.key "accounts", .index index, .index 0, .index 1] ++ path)
  | choice {index : Nat} {part : Json} {path : Json.Path} :
      document.part? [.key "choices", .index index, .index 0] = some part →
      Wire.Content.Reaches inner (.node .choiceId) part path →
      Reaches inner document ([.key "choices", .index index, .index 0] ++ path)

namespace Canonical.Kind

/-- In the document of a value, a path leads to the document of a node of the inner
family. -/
def Reaches (inner : Wire.Family) : Kind → Json → Json.Path → Prop
  | node family => Wire.Content.Reaches inner (.node family)
  | state => State.Reaches inner

/-- Two values differ in one place, which has the given path: there one has one node and
the other another, and around it they are the same. -/
inductive Replaces
    {inner : Wire.Family}
    (path : Json.Path)
    (old new : inner.Node) :
    (kind : Kind) → kind.Carrier → kind.Carrier → Prop
  | node {family : Wire.Family} (hole : Wire.Hole inner (.node family)) :
      hole.path = path →
      Replaces path old new (node family) (hole.fill old) (hole.fill new)

end Canonical.Kind
end Covenant
