import Covenant.Proofs.Wire.Entries
import Covenant.Proofs.Wire.Kind

/-!
# Only documents of values are read

A document that is read as a node is the document of that node up to the order of keys
in objects, so reading forgives nothing but that order.  A state may moreover list the
entries of its three maps in any order.
-/

namespace Covenant
namespace Wire

/-- An object has the key of a field with the document of an argument, up to the order
of keys. -/
def Lists (members : Json.Members) (field : Field) (argument : field.content.Carrier) : Prop :=
  ∃ document, (field.key, document) ∈ members ∧
    document.SameUpToKeyOrder (field.content.encode argument)

/-- Among the members of an object that lists all arguments of a form are those that
the form writes. -/
theorem Arguments.exists_members_of_each_lists
    {members : Json.Members}
    {fields : List Field}
    {arguments : Arguments fields}
    (listed : Each (Lists members) fields arguments) :
    ∃ ordered : Json.Members, (∀ member ∈ ordered, member ∈ members) ∧
      List.Forall₂ Json.SameMember ordered (write fields arguments) := by
  induction fields with
  | nil => exact ⟨[], by simp, .nil⟩
  | cons field rest inductionHypothesis =>
      obtain ⟨first, others⟩ := arguments
      obtain ⟨⟨document, listed, same⟩, rest⟩ := listed
      obtain ⟨ordered, within, alike⟩ := inductionHypothesis rest
      exact ⟨(field.key, document) :: ordered, List.forall_mem_cons.mpr ⟨listed, within⟩,
        .cons ⟨rfl, same⟩ alike⟩

/-- Members with distinct keys, all of them keys of chosen members, are the chosen
members in some order. -/
theorem perm_of_chosen
    {members chosen : Json.Members}
    (distinct : (Json.Members.keys members).Nodup)
    (distinctChosen : (Json.Members.keys chosen).Nodup)
    (within : ∀ member ∈ chosen, member ∈ members)
    (complete : ∀ key ∈ Json.Members.keys members, key ∈ Json.Members.keys chosen) :
    members.Perm chosen := by
  refine (List.perm_ext_iff_of_nodup (List.Nodup.of_map Prod.fst distinct)
    (List.Nodup.of_map Prod.fst distinctChosen)).mpr fun member => ⟨?_, within member⟩
  intro listed
  obtain ⟨key, value⟩ := member
  obtain ⟨⟨_, other⟩, listedOther, rfl⟩ :=
    List.mem_map.mp (complete key (List.mem_map.mpr ⟨_, listed, rfl⟩))
  have found := (Json.Members.lookup_eq_some_iff distinct).mpr listed
  have foundOther := (Json.Members.lookup_eq_some_iff distinct).mpr (within _ listedOther)
  obtain rfl : value = other := Option.some.inj (found.symm.trans foundOther)
  exact listedOther

namespace Family

/-- An object that is read as a node is the document of the node if its parts are. -/
theorem same_of_decode_object
    {family : Family}
    {members : Json.Members}
    {node : family.Node}
    (distinct : (Json.Members.keys members).Nodup)
    (sameParts : ∀ part ∈ (Json.object members).parts,
      ∀ (context : String) (content : Content) (carrier : content.Carrier),
        content.decode context part = .ok carrier →
        part.SameUpToKeyOrder (content.encode carrier))
    (decoded : family.decode (.object members) = .ok node) :
    (Json.object members).SameUpToKeyOrder (family.encode node) := by
  obtain ⟨form, known, within, arguments, read, rfl⟩ := decode_object_eq_ok_iff.mp decoded
  have listed := List.mem_of_find?_eq_some known
  obtain ⟨written, same, permuted⟩ := encode_build listed arguments
  have lists : Arguments.Each (Lists members) form.fields arguments := by
    refine Arguments.each_imp ?_ read
    rintro field argument ⟨document, lookedUp, read⟩
    have member := (Json.Members.lookup_eq_some_iff distinct).mp lookedUp
    exact ⟨document, member, sameParts document (Json.mem_parts_object member) _ _ _ read⟩
  obtain ⟨ordered, chosen, alike⟩ := Arguments.exists_members_of_each_lists lists
  have keys : Json.Members.keys ordered = form.keys :=
    (Json.forall₂_sameMember_iff.mp alike).1.trans (Arguments.keys_write _ _)
  have reordered : members.Perm ordered :=
    perm_of_chosen distinct (keys ▸ nodup_keys family form listed) chosen (keys ▸ within)
  rw [same]
  exact .of_members reordered alike permuted.symm

end Family

namespace Content

theorem same_of_decode
    {context : String}
    {content : Content}
    {document : Json}
    {carrier : content.Carrier}
    (distinct : document.HasDistinctKeys)
    (decoded : content.decode context document = .ok carrier) :
    document.SameUpToKeyOrder (content.encode carrier) := by
  induction document using Json.inductionOnParts generalizing context content with
  | step document inductionHypothesis =>
      cases content with
      | text =>
          rw [decode_text] at decoded
          obtain rfl := Json.readText_eq_ok_iff.mp decoded
          exact .string _
      | integer =>
          rw [decode_integer] at decoded
          obtain rfl := Json.readInteger_eq_ok_iff.mp decoded
          exact .number _
      | unsigned =>
          rw [decode_unsigned] at decoded
          obtain rfl := Json.readUnsigned_eq_ok_iff.mp decoded
          exact .number _
      | time =>
          rw [decode_time] at decoded
          obtain rfl := Json.readTime_eq_ok_iff.mp decoded
          exact .number _
      | nodes family =>
          obtain ⟨items, rfl, read⟩ := decode_nodes_eq_ok_iff.mp decoded
          refine .array (List.forall₂_map_right_iff.mpr ?_)
          have both := (List.forall₂_and_left _ _).mpr ⟨fun item => id, read⟩
          apply both.imp
          intro item node found
          obtain ⟨inside, read⟩ := found
          have decodedItem : decode context (.node family) item = .ok node :=
            (decode_node context family item).trans read
          exact inductionHypothesis item inside (distinct.part inside) decodedItem
      | node family =>
          rw [decode_node] at decoded
          by_cases isObject : ∃ members, document = .object members
          · obtain ⟨members, rfl⟩ := isObject
            refine Family.same_of_decode_object distinct.nodup_keys ?_ decoded
            intro part inside context content carrier read
            exact inductionHypothesis part inside (distinct.part inside) read
          · rw [Family.decode_eq_readAtom (not_exists.mp isObject)] at decoded
            change document.SameUpToKeyOrder (family.encode carrier)
            rw [Family.encode_of_readAtom decoded]
            exact .refl document

end Content

theorem Family.same_of_decode
    (family : Family)
    {document : Json}
    {node : family.Node}
    (distinct : document.HasDistinctKeys)
    (decoded : family.decode document = .ok node) :
    document.SameUpToKeyOrder (family.encode node) := by
  rw [← Content.decode_node family.label] at decoded
  exact Content.same_of_decode distinct decoded

end Wire

namespace State

/-- Two documents of states differ at most in the order of keys in their objects and in
the order of the entries of their three arrays. -/
inductive SameUpToOrder : Json → Json → Prop
  | reordered
      {document minTime : Json}
      {accounts accounts' choices choices' boundValues boundValues' : List Json} :
      document.SameUpToKeyOrder (.object [("accounts", .array accounts),
        ("choices", .array choices), ("boundValues", .array boundValues), ("minTime", minTime)]) →
      accounts.Perm accounts' →
      choices.Perm choices' →
      boundValues.Perm boundValues' →
      SameUpToOrder document (.object [("accounts", .array accounts'),
        ("choices", .array choices'), ("boundValues", .array boundValues'), ("minTime", minTime)])

theorem same_of_readsBalance
    {entry : Json}
    {binding : Account × Nat}
    (distinct : entry.HasDistinctKeys)
    (reads : ReadsBalance entry binding) :
    entry.SameUpToKeyOrder (encodeBalance binding.1 binding.2) := by
  obtain ⟨owner, asset, rfl, readOwner, readAsset⟩ := reads
  have distinctKey : (Json.array [owner, asset]).HasDistinctKeys := distinct.part (by simp)
  have sameOwner := Wire.Family.same_of_decode .party (distinctKey.part (by simp)) readOwner
  have sameAsset := Wire.Family.same_of_decode .asset (distinctKey.part (by simp)) readAsset
  have sameKey := Json.SameUpToKeyOrder.array (.cons sameOwner (.cons sameAsset .nil))
  exact .array (.cons sameKey (.cons (.refl _) .nil))

theorem same_of_readsChoice
    {entry : Json}
    {binding : ChoiceId × Int}
    (distinct : entry.HasDistinctKeys)
    (reads : ReadsChoice entry binding) :
    entry.SameUpToKeyOrder (encodeChoice binding.1 binding.2) := by
  obtain ⟨choice, rfl, readChoice⟩ := reads
  have sameChoice := Wire.Family.same_of_decode .choiceId (distinct.part (by simp)) readChoice
  exact .array (.cons sameChoice (.cons (.refl _) .nil))

theorem same_of_readsBinding
    {entry : Json}
    {binding : String × Int}
    (reads : ReadsBinding entry binding) :
    entry.SameUpToKeyOrder (encodeBinding binding.1 binding.2) := by
  rw [show entry = encodeBinding binding.1 binding.2 from reads]
  exact .refl _

/-- An array whose entries are read as bindings lists the documents of these. -/
theorem same_of_forall₂_reads
    {β : Type}
    {readsAs : Json → β → Prop}
    {encodeEntry : β → Json}
    {entries : List Json}
    {bindings : List β}
    (distinct : (Json.array entries).HasDistinctKeys)
    (reads : List.Forall₂ readsAs entries bindings)
    (same : ∀ entry binding, entry.HasDistinctKeys → readsAs entry binding →
      entry.SameUpToKeyOrder (encodeEntry binding)) :
    (Json.array entries).SameUpToKeyOrder (.array (bindings.map encodeEntry)) := by
  refine .array (List.forall₂_map_right_iff.mpr ?_)
  have both := (List.forall₂_and_left _ _).mpr ⟨fun entry inside => distinct.part inside, reads⟩
  exact both.imp fun entry binding found => same entry binding found.1 found.2

theorem same_of_decode
    {document : Json}
    {state : State}
    (distinct : document.HasDistinctKeys)
    (decoded : decode document = .ok state) :
    SameUpToOrder document state.encode := by
  obtain ⟨members, rfl, decoded⟩ := decode_eq_ok_iff.mp decoded
  obtain ⟨within, ⟨accountEntries, accounts, foundAccounts, readAccounts, allAccounts⟩,
    ⟨choiceEntries, choices, foundChoices, readChoices, allChoices⟩,
    ⟨valueEntries, values, foundValues, readValues, allValues⟩, foundTime⟩ :=
    decodeMembers_eq_ok_iff.mp decoded
  have distinctKeys := distinct.nodup_keys
  rw [Json.Members.lookup_eq_some_iff distinctKeys] at foundAccounts foundChoices
  rw [Json.Members.lookup_eq_some_iff distinctKeys] at foundValues foundTime
  have reordered : members.Perm [("accounts", .array accountEntries),
      ("choices", .array choiceEntries), ("boundValues", .array valueEntries),
      ("minTime", .integer state.minTime.toInt)] := by
    refine Wire.perm_of_chosen distinctKeys (by simp [Json.Members.keys]) ?_ ?_
    · simp [foundAccounts, foundChoices, foundValues, foundTime]
    · simpa [Json.Members.keys, documentKeys] using within
  have sameAccounts := same_of_forall₂_reads
    (distinct.part (Json.mem_parts_object foundAccounts)) readAccounts
    fun _ _ => same_of_readsBalance
  have sameChoices := same_of_forall₂_reads
    (distinct.part (Json.mem_parts_object foundChoices)) readChoices
    fun _ _ => same_of_readsChoice
  have sameValues := same_of_forall₂_reads
    (distinct.part (Json.mem_parts_object foundValues)) readValues
    fun _ _ _ => same_of_readsBinding
  -- Up to the order of keys the document lists the bindings as it is read; the encoder
  -- lists the same bindings in the order of the maps.
  have sameMembers : (Json.object members).SameUpToKeyOrder (.object
      [("accounts", .array (accounts.map fun entry => encodeBalance entry.1 entry.2)),
        ("choices", .array (choices.map fun entry => encodeChoice entry.1 entry.2)),
        ("boundValues", .array (values.map fun entry => encodeBinding entry.1 entry.2)),
        ("minTime", .integer state.minTime.toInt)]) := by
    refine .object reordered rfl ?_
    exact .cons sameAccounts (.cons sameChoices (.cons sameValues (.cons (.refl _) .nil)))
  refine .reordered sameMembers ?_ ?_ ?_
  · exact (allAccounts.map _).symm
  · exact (allChoices.map _).symm
  · exact (allValues.map _).symm

end State

namespace Canonical.Kind

/-- Two documents of a kind differ at most in what reading that kind forgives: the order
of keys, and for states also the order of entries. -/
def SameDocument : Kind → Json → Json → Prop
  | node _ => Json.SameUpToKeyOrder
  | state => State.SameUpToOrder

/-- A document without repeated keys that is read as a value is the document of the
value, up to the order of keys and of the entries of states. -/
theorem sameDocument_of_decode
    (kind : Kind)
    {document : Json}
    {value : kind.Carrier}
    (distinct : document.HasDistinctKeys)
    (decoded : decode document = .ok value) :
    kind.SameDocument document (encode value) := by
  cases kind with
  | node family =>
      rw [decode_node] at decoded
      rw [encode_node]
      exact family.same_of_decode distinct decoded
  | state => exact State.same_of_decode distinct decoded

/-- A comparison whose keys, and those of the difference in it, are not listed in the
order of its canonical document. -/
def reorderedComparison : Json :=
  .object [("lt", .number "-2"),
    ("value", .object [("value", .string "time_interval_start"), ("minus", .number "7")])]

theorem sameDocument_reorderedComparison :
    reorderedComparison.HasDistinctKeys ∧
      (decode reorderedComparison : Decoded (node .observation).Carrier) =
        .ok (.compare .less (.subtract (.constant 7) .intervalStart) (.constant (-2))) ∧
      (node .observation).SameDocument reorderedComparison
        (Observation.compare .less (.subtract (.constant 7) .intervalStart)
          (.constant (-2))).encode := by
  have distinct : reorderedComparison.HasDistinctKeys := by
    refine .object (by decide) (List.forall_mem_cons.mpr ⟨.number _, ?_⟩)
    refine List.forall_mem_singleton.mpr (.object (by decide) ?_)
    exact List.forall_mem_cons.mpr ⟨.string _, List.forall_mem_singleton.mpr (.number _)⟩
  exact ⟨distinct, by rfl, sameDocument_of_decode (node .observation) distinct (by rfl)⟩

end Canonical.Kind
end Covenant
