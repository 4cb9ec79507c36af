import Covenant.Proofs.Wire.Entries
import Covenant.Proofs.Wire.Kind

/-!
# Documents are read back

Reading the document of a value gives the value.  For nodes the induction goes by the
forms and covers all contents of fields at once, so that the families need not be taken
one by one.  A state is read back because its entries are, and because the bindings that
a map lists are those of no other map.
-/

namespace Covenant

/-- What is made of some values, one by one, is related to them if it is for each of them. -/
theorem forall₂_map_self
    {α β : Type}
    {related : α → β → Prop}
    {make : β → α}
    {values : List β}
    (each : ∀ value ∈ values, related (make value) value) :
    List.Forall₂ related (values.map make) values :=
  List.forall₂_map_left_iff.mpr (List.forall₂_same.mpr each)

namespace Wire

theorem Arguments.keys_perm_of_perm_write
    {fields : List Field}
    {arguments : Arguments fields}
    {members : Json.Members}
    (written : members.Perm (write fields arguments)) :
    (Json.Members.keys members).Perm (fields.map Field.key) := by
  rw [← keys_write fields arguments]
  exact written.map Prod.fst

/-- An object that a form writes is read back if its arguments are. -/
theorem Family.decode_object_of_written
    {family : Family}
    {form : Form family.Node}
    (listed : form ∈ family.forms)
    {arguments : Arguments form.fields}
    {members : Json.Members}
    (written : members.Perm (Arguments.write form.fields arguments))
    (readBack : Arguments.Each
      (fun field argument => ∀ context,
        field.content.decode context (field.content.encode argument) = .ok argument)
      form.fields arguments) :
    family.decode (.object members) = .ok (form.build.apply arguments) := by
  have keys := Arguments.keys_perm_of_perm_write written
  have distinct : (Json.Members.keys members).Nodup :=
    keys.nodup_iff.mpr (nodup_keys family form listed)
  have found : ∀ member ∈ Arguments.write form.fields arguments,
      members.lookup member.1 = some member.2 := by
    intro member isWritten
    exact (Json.Members.lookup_eq_some_iff distinct).mpr (written.mem_iff.mpr isWritten)
  refine decode_object_eq_ok_iff.mpr
    ⟨form, form?_eq_some listed fun _ => keys.mem_iff, fun _ => keys.mem_iff.mp, arguments, ?_, rfl⟩
  have both := Arguments.each_and readBack (Arguments.forall_mem_write_iff.mp found)
  exact Arguments.each_imp (fun field argument holds => ⟨_, holds.2, holds.1 form.name⟩) both

theorem Content.decode_encode
    (context : String)
    (content : Content)
    (carrier : content.Carrier) :
    content.decode context (content.encode carrier) = .ok carrier := by
  induction content, carrier using Content.inductionOnForms generalizing context with
  | text value => rfl
  | integer n => exact (decode_integer _ _).trans (Json.readInteger_eq_ok_iff.mpr rfl)
  | unsigned n => exact (decode_unsigned _ _).trans (Json.readUnsigned_eq_ok_iff.mpr rfl)
  | time n => exact (decode_time _ _).trans (Json.readTime_eq_ok_iff.mpr rfl)
  | nodes family listed readBack =>
      refine decode_nodes_eq_ok_iff.mpr ⟨_, rfl, forall₂_map_self fun node isListed => ?_⟩
      rw [← decode_node context]
      exact readBack node isListed context
  | atom family node isAtom =>
      rw [decode_node]
      change family.decode (family.encode node) = .ok node
      rw [Family.decode_eq_readAtom isAtom.1, isAtom.2]
  | built family form arguments listed readBack =>
      obtain ⟨members, same, written⟩ := Family.encode_build listed arguments
      rw [decode_node]
      change family.decode (family.encode _) = _
      rw [same]
      exact Family.decode_object_of_written listed written readBack

theorem Family.decode_encode
    (family : Family)
    (node : family.Node) :
    family.decode (family.encode node) = .ok node :=
  Content.decode_encode family.label (.node family) node

theorem Family.encode_injective (family : Family) : Function.Injective family.encode := by
  intro node node' same
  apply Except.ok.inj
  rw [← family.decode_encode node, same, family.decode_encode]

end Wire

namespace State

theorem readsBalance_encodeBalance (account : Account) (amount : Nat) :
    ReadsBalance (encodeBalance account amount) (account, amount) :=
  ⟨_, _, rfl, Wire.Family.decode_encode .party account.owner,
    Wire.Family.decode_encode .asset account.asset⟩

theorem readsChoice_encodeChoice (choice : ChoiceId) (chosen : Int) :
    ReadsChoice (encodeChoice choice chosen) (choice, chosen) :=
  ⟨_, rfl, Wire.Family.decode_encode .choiceId choice⟩

theorem readsBinding_encodeBinding (name : String) (value : Int) :
    ReadsBinding (encodeBinding name value) (name, value) := rfl

theorem decode_encode (state : State) : decode state.encode = .ok state := by
  refine decode_eq_ok_iff.mpr ⟨_, rfl, decodeMembers_eq_ok_iff.mpr ⟨?_, ?_, ?_, ?_, ?_⟩⟩
  · simp [Json.Members.keys, documentKeys]
  · refine ⟨_, state.accounts.toList, rfl, forall₂_map_self fun entry _ => ?_, .refl _⟩
    exact readsBalance_encodeBalance entry.1 entry.2
  · refine ⟨_, state.choices.toList, rfl, forall₂_map_self fun entry _ => ?_, .refl _⟩
    exact readsChoice_encodeChoice entry.1 entry.2
  · refine ⟨_, state.boundValues.toList, rfl, forall₂_map_self fun entry _ => ?_, .refl _⟩
    exact readsBinding_encodeBinding entry.1 entry.2
  · rfl

theorem encode_injective : Function.Injective State.encode := by
  intro state state' same
  apply Except.ok.inj
  rw [← decode_encode state, same, decode_encode]

end State

/-- Reading the document of a value gives the value, whatever its kind. -/
theorem Canonical.Kind.decode_encode_eq_ok
    (kind : Canonical.Kind)
    (value : kind.Carrier) :
    Canonical.decode (Canonical.encode value) = .ok value := by
  cases kind with
  | node family =>
      rw [decode_node, encode_node]
      exact family.decode_encode value
  | state => exact State.decode_encode value

end Covenant
