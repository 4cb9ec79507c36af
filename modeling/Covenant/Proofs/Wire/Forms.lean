import Covenant.Proofs.Json.KeyOrder
import Covenant.Proofs.Wire.Reading
import Covenant.Wire.Canonical

/-!
# Forms and nodes

Reading follows the schema, while the documents of nodes are written form by form.
The laws of this module tie the two together.  Every node is either an atom or built
by a form of its family (`Family.atom_or_built`); the document of a node that a form
builds lists the fields of that form (`Family.encode_build`); and an object with the
keys of a form is recognised as that form (`Family.form?_eq_some`).
-/

namespace Covenant
namespace Wire

/-- The document of a node. -/
def Family.encode : (family : Family) → family.Node → Json
  | contract => Contract.encode
  | case => Case.encode
  | action => Action.encode
  | input => Input.encode
  | value => Value.encode
  | observation => Observation.encode
  | party => Party.encode
  | payee => Payee.encode
  | asset => Asset.encode
  | choiceId => ChoiceId.encode
  | bound => Bound.encode

/-- The document of the content of a field. -/
def Content.encode : (content : Content) → content.Carrier → Json
  | text, value => .string value
  | integer, n => .integer n
  | unsigned, n => .integer n.toNat
  | time, n => .integer n.toInt
  | node family, value => family.encode value
  | nodes family, values => .array (values.map family.encode)

/-- The members that the fields of a form are written as, in the order in which they
are read. -/
def Arguments.write : (fields : List Field) → Arguments fields → Json.Members
  | [], _ => []
  | field :: rest, (first, others) => (field.key, field.content.encode first) :: write rest others

@[simp] theorem Arguments.keys_write
    (fields : List Field)
    (arguments : Arguments fields) :
    Json.Members.keys (write fields arguments) = fields.map Field.key := by
  induction fields with
  | nil => rfl
  | cons field rest inductionHypothesis =>
      simp only [Json.Members.keys] at inductionHypothesis ⊢
      simp [write, inductionHypothesis]

theorem Arguments.each_imp
    {holds holds' : (field : Field) → field.content.Carrier → Prop}
    (imply : ∀ field argument, holds field argument → holds' field argument)
    {fields : List Field}
    {arguments : Arguments fields}
    (each : Each holds fields arguments) :
    Each holds' fields arguments := by
  induction fields with
  | nil => trivial
  | cons field rest inductionHypothesis =>
      exact ⟨imply field _ each.1, inductionHypothesis each.2⟩

theorem Arguments.each_and
    {holds holds' : (field : Field) → field.content.Carrier → Prop}
    {fields : List Field}
    {arguments : Arguments fields}
    (each : Each holds fields arguments)
    (each' : Each holds' fields arguments) :
    Each (fun field argument => holds field argument ∧ holds' field argument)
      fields arguments := by
  induction fields with
  | nil => trivial
  | cons field rest inductionHypothesis =>
      exact ⟨⟨each.1, each'.1⟩, inductionHypothesis each.2 each'.2⟩

/-- A property holds of all members that are written if it holds of what every field is
written as. -/
theorem Arguments.forall_mem_write_iff
    {holds : String × Json → Prop}
    {fields : List Field}
    {arguments : Arguments fields} :
    (∀ member ∈ write fields arguments, holds member) ↔
      Each (fun field argument => holds (field.key, field.content.encode argument))
        fields arguments := by
  induction fields with
  | nil => simp [write, Each]
  | cons field rest inductionHypothesis =>
      rw [write, List.forall_mem_cons, inductionHypothesis, Each]

namespace Family

/-- The document of a node that a form builds lists the fields of the form. -/
theorem encode_build
    {family : Family}
    {form : Form family.Node}
    (listed : form ∈ family.forms)
    (arguments : Arguments form.fields) :
    ∃ members, family.encode (form.build.apply arguments) = .object members ∧
      members.Perm (Arguments.write form.fields arguments) := by
  cases family with
  | action =>
      simp only [forms, actionForms, List.mem_cons, List.not_mem_nil, or_false] at listed
      rcases listed with rfl | rfl | rfl
      · exact ⟨_, rfl, .refl _⟩
      · -- the bounds are read before the choice and written behind it
        exact ⟨_, rfl, .swap _ _ _⟩
      · exact ⟨_, rfl, .refl _⟩
  | contract =>
      simp only [forms, contractForms, List.mem_cons, List.not_mem_nil, or_false] at listed
      rcases listed with rfl | rfl | rfl | rfl | rfl
      case inr.inr.inr.inr =>
        refine ⟨_, rfl, ?_⟩
        rw [Case.encodeAll_eq_map]
        exact .refl _
      all_goals exact ⟨_, rfl, .refl _⟩
  | _ =>
      simp only [forms, caseForms, inputForms, valueForms, observationForms, partyForms,
        payeeForms, assetForms, choiceIdForms, boundForms, List.mem_cons, List.not_mem_nil,
        or_false] at listed
      repeat' obtain rfl | listed := listed
      all_goals exact ⟨_, rfl, .refl _⟩

/-- A node is an atom if its document is no object and reading that gives the node. -/
def IsAtom (family : Family) (node : family.Node) : Prop :=
  (∀ members, family.encode node ≠ .object members) ∧
    family.readAtom (family.encode node) = .ok node

/-- A node is built if some form of its family makes it up out of arguments. -/
def IsBuilt (family : Family) (node : family.Node) : Prop :=
  ∃ form ∈ family.forms, ∃ arguments, form.build.apply arguments = node

theorem contract_atom_or_built (node : Contract) :
    contract.IsAtom node ∨ contract.IsBuilt node := by
  cases node with
  | close => exact .inl ⟨by simp [encode, Contract.encode], rfl⟩
  | bind name value next =>
      exact .inr ⟨contractForms[0], List.getElem_mem _, (name, value, next, ()), rfl⟩
  | choose condition ifTrue ifFalse =>
      exact .inr ⟨contractForms[1], List.getElem_mem _, (condition, ifTrue, ifFalse, ()), rfl⟩
  | assert condition next =>
      exact .inr ⟨contractForms[2], List.getElem_mem _, (condition, next, ()), rfl⟩
  | pay source payee asset amount next =>
      exact .inr ⟨contractForms[3], List.getElem_mem _,
        (source, payee, asset, amount, next, ()), rfl⟩
  | await cases timeout onTimeout =>
      exact .inr ⟨contractForms[4], List.getElem_mem _, (cases, timeout, onTimeout, ()), rfl⟩

theorem action_built (node : Action) : action.IsBuilt node := by
  cases node with
  | deposit into party asset amount =>
      exact ⟨actionForms[0], List.getElem_mem _, (into, party, asset, amount, ()), rfl⟩
  | choice id bounds => exact ⟨actionForms[1], List.getElem_mem _, (bounds, id, ()), rfl⟩
  | notify condition => exact ⟨actionForms[2], List.getElem_mem _, (condition, ()), rfl⟩

theorem input_atom_or_built (node : Input) : input.IsAtom node ∨ input.IsBuilt node := by
  cases node with
  | deposit into party asset amount =>
      exact .inr ⟨inputForms[0], List.getElem_mem _, (into, party, asset, amount, ()), rfl⟩
  | choice id chosen => exact .inr ⟨inputForms[1], List.getElem_mem _, (id, chosen, ()), rfl⟩
  | notify => exact .inl ⟨by simp [encode, Input.encode], rfl⟩

theorem value_atom_or_built (node : Value) : value.IsAtom node ∨ value.IsBuilt node := by
  cases node with
  | available asset account =>
      exact .inr ⟨valueForms[0], List.getElem_mem _, (asset, account, ()), rfl⟩
  | chosen choice => exact .inr ⟨valueForms[1], List.getElem_mem _, (choice, ()), rfl⟩
  | use name => exact .inr ⟨valueForms[2], List.getElem_mem _, (name, ()), rfl⟩
  | negate operand => exact .inr ⟨valueForms[3], List.getElem_mem _, (operand, ()), rfl⟩
  | add left right => exact .inr ⟨valueForms[4], List.getElem_mem _, (left, right, ()), rfl⟩
  | subtract left right =>
      exact .inr ⟨valueForms[5], List.getElem_mem _, (left, right, ()), rfl⟩
  | multiply left right =>
      exact .inr ⟨valueForms[6], List.getElem_mem _, (left, right, ()), rfl⟩
  | divide left right => exact .inr ⟨valueForms[7], List.getElem_mem _, (left, right, ()), rfl⟩
  | cond condition ifTrue ifFalse =>
      exact .inr ⟨valueForms[8], List.getElem_mem _, (condition, ifTrue, ifFalse, ()), rfl⟩
  | constant n =>
      refine .inl ⟨by simp [encode, Value.encode, Json.integer], ?_⟩
      have read : (Json.integer n).readInteger "Constant" = .ok n :=
        Json.readInteger_eq_ok_iff.mpr rfl
      exact Decoded.map_eq_ok_iff.mpr ⟨n, read, rfl⟩
  | intervalStart => exact .inl ⟨by simp [encode, Value.encode], rfl⟩
  | intervalEnd => exact .inl ⟨by simp [encode, Value.encode], rfl⟩

theorem observation_atom_or_built (node : Observation) :
    observation.IsAtom node ∨ observation.IsBuilt node := by
  cases node with
  | conjunction left right =>
      exact .inr ⟨observationForms[0], List.getElem_mem _, (left, right, ()), rfl⟩
  | disjunction left right =>
      exact .inr ⟨observationForms[1], List.getElem_mem _, (left, right, ()), rfl⟩
  | negation operand =>
      exact .inr ⟨observationForms[2], List.getElem_mem _, (operand, ()), rfl⟩
  | hasChosen choice =>
      exact .inr ⟨observationForms[3], List.getElem_mem _, (choice, ()), rfl⟩
  | compare comparison left right =>
      refine .inr ⟨comparisonForm comparison, ?_, (left, right, ()), rfl⟩
      cases comparison <;> simp [forms, observationForms]
  | truth holds => exact .inl ⟨by simp [encode, Observation.encode], rfl⟩

theorem party_built (node : Party) : party.IsBuilt node := by
  cases node with
  | role name => exact ⟨partyForms[0], List.getElem_mem _, (name, ()), rfl⟩
  | address text => exact ⟨partyForms[1], List.getElem_mem _, (text, ()), rfl⟩

theorem payee_built (node : Payee) : payee.IsBuilt node := by
  cases node with
  | party recipient => exact ⟨payeeForms[0], List.getElem_mem _, (recipient, ()), rfl⟩
  | account owner => exact ⟨payeeForms[1], List.getElem_mem _, (owner, ()), rfl⟩

/-- Every node is an atom, which is read as it is, or built by a form. -/
theorem atom_or_built (family : Family) (node : family.Node) :
    family.IsAtom node ∨ family.IsBuilt node := by
  cases family with
  | contract => exact contract_atom_or_built node
  | case =>
      obtain ⟨action, next⟩ := node
      exact .inr ⟨caseForms[0], List.getElem_mem _, (action, next, ()), rfl⟩
  | action => exact .inr (action_built node)
  | input => exact input_atom_or_built node
  | value => exact value_atom_or_built node
  | observation => exact observation_atom_or_built node
  | party => exact .inr (party_built node)
  | payee => exact .inr (payee_built node)
  | asset =>
      exact .inr ⟨assetForms[0], List.getElem_mem _,
        (node.currencySymbol, node.tokenName, ()), rfl⟩
  | choiceId =>
      exact .inr ⟨choiceIdForms[0], List.getElem_mem _, (node.name, node.owner, ()), rfl⟩
  | bound =>
      exact .inr ⟨boundForms[0], List.getElem_mem _, (node.upper, node.lower, ()), rfl⟩

/-- A document that is read as an atom is the document of that atom. -/
theorem encode_of_readAtom
    {family : Family}
    {document : Json}
    {node : family.Node}
    (read : family.readAtom document = .ok node) :
    family.encode node = document := by
  unfold readAtom at read
  split at read
  · cases read
    rfl
  · cases read
    rfl
  · cases read
    rfl
  · cases read
    rfl
  · obtain ⟨n, found, rfl⟩ := Decoded.map_eq_ok_iff.mp read
    exact (Json.readInteger_eq_ok_iff.mp found).symm
  · cases read
    rfl
  · cases read

/-! ## Keys and tags -/

theorem nodup_keys (family : Family) : ∀ form ∈ family.forms, form.keys.Nodup := by
  cases family <;> decide

theorem tags_subset_keys (family : Family) :
    ∀ form ∈ family.forms, ∀ tag ∈ form.tags, tag ∈ form.keys := by
  cases family <;> decide

/-- A form lacks a tag of every form that is tried before it. -/
theorem forms_apart (family : Family) :
    family.forms.Pairwise fun earlier later => ∃ tag ∈ earlier.tags, tag ∉ later.keys := by
  cases family <;> decide

/-- An object with the keys of a form is recognised as that form. -/
theorem form?_eq_some
    {family : Family}
    {form : Form family.Node}
    (listed : form ∈ family.forms)
    {members : Json.Members}
    (sameKeys : ∀ key, key ∈ Json.Members.keys members ↔ key ∈ form.keys) :
    family.form? members = some form := by
  obtain ⟨before, behind, split⟩ := List.mem_iff_append.mp listed
  refine List.find?_eq_some_iff_append.mpr ⟨?_, before, behind, split, ?_⟩
  · apply List.all_eq_true.mpr
    intro tag isTag
    exact Json.Members.hasKey_iff.mpr
      ((sameKeys tag).mpr (tags_subset_keys family form listed tag isTag))
  · intro earlier tried
    have apart := forms_apart family
    rw [split, List.pairwise_append] at apart
    obtain ⟨tag, isTag, missing⟩ := apart.2.2 earlier tried form List.mem_cons_self
    have notAdmitted : earlier.admits members ≠ true := by
      intro admitted
      have present := List.all_eq_true.mp admitted tag isTag
      exact missing ((sameKeys tag).mp (Json.Members.hasKey_iff.mp present))
    simpa using notAdmitted

end Family

/-- A property of whatever a field can hold passes from the parts of arrays and from the
arguments of forms to all arrays and nodes. -/
@[elab_as_elim]
theorem Content.inductionOnForms
    {motive : (content : Content) → content.Carrier → Prop}
    (text : ∀ value, motive .text value)
    (integer : ∀ n, motive .integer n)
    (unsigned : ∀ n, motive .unsigned n)
    (time : ∀ n, motive .time n)
    (nodes : ∀ (family : Family) (listed : List family.Node),
      (∀ node ∈ listed, motive (.node family) node) → motive (.nodes family) listed)
    (atom : ∀ (family : Family) (node : family.Node),
      family.IsAtom node → motive (.node family) node)
    (built : ∀ (family : Family) (form : Form family.Node) (arguments : Arguments form.fields),
      form ∈ family.forms →
      Arguments.Each (fun field argument => motive field.content argument)
        form.fields arguments →
      motive (.node family) (form.build.apply arguments))
    (content : Content)
    (carrier : content.Carrier) :
    motive content carrier := by
  -- The documents get smaller from a node to its arguments, so they carry the induction.
  generalize written : content.encode carrier = document
  induction document using Json.inductionOnParts generalizing content with
  | step document inductionHypothesis =>
      subst written
      cases content with
      | text => exact text carrier
      | integer => exact integer carrier
      | unsigned => exact unsigned carrier
      | time => exact time carrier
      | nodes family =>
          apply nodes family carrier
          intro node listed
          exact inductionHypothesis _ (List.mem_map_of_mem listed) (.node family) node rfl
      | node family =>
          rcases family.atom_or_built carrier with isAtom | ⟨form, listed, arguments, rfl⟩
          · exact atom family carrier isAtom
          · obtain ⟨members, same, written⟩ := Family.encode_build listed arguments
            have inside : ∀ member ∈ Arguments.write form.fields arguments,
                member.2 ∈ (family.encode (form.build.apply arguments)).parts := by
              intro member isWritten
              rw [same]
              exact Json.mem_parts_object (written.mem_iff.mpr isWritten)
            apply built family form arguments listed
            refine Arguments.each_imp ?_ (Arguments.forall_mem_write_iff.mp inside)
            intro field argument part
            exact inductionHypothesis _ part field.content argument rfl

end Wire
end Covenant
