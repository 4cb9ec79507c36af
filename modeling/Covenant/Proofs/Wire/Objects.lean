import Covenant.Proofs.Wire.Compositionality

/-!
# Objects inside documents

Every object in a document that is read, however deep, is the document of a node or, if it
is the whole, that of a state: texts, integers and times are no objects, and entries of
states are arrays.  What is put in the place of such an object and is refused there is
refused in the whole document for the same reason
(`Canonical.Kind.exists_kind_of_part?`).
-/

namespace Covenant
namespace Json

/-- What is in an array of two and is no array is in one of its items. -/
theorem part?_pair_eq_some
    {first second part : Json}
    {path : Path}
    (found : (array [first, second]).part? path = some part)
    (noArray : ∀ items, part ≠ array items) :
    (∃ further, path = .index 0 :: further ∧ first.part? further = some part) ∨
      ∃ further, path = .index 1 :: further ∧ second.part? further = some part := by
  rcases path with _ | ⟨key | _ | _ | index, further⟩
  · exact absurd (Option.some.inj found).symm (noArray _)
  · cases found
  · exact .inl ⟨further, rfl, found⟩
  · exact .inr ⟨further, rfl, found⟩
  · cases found

/-- There is no object in an integer. -/
theorem part?_integer_ne_object
    (n : Int)
    (path : Path)
    (members : Members) :
    (integer n).part? path ≠ some (object members) := by
  rcases path with _ | ⟨key | index, path⟩ <;> simp [integer, part?]

theorem part?_string_ne_object
    (text : String)
    (path : Path)
    (members : Members) :
    (string text).part? path ≠ some (object members) := by
  rcases path with _ | ⟨key | index, path⟩ <;> simp [part?]

end Json

namespace Wire
namespace Content

/-- Only nodes are read from objects. -/
theorem eq_node_of_decode_object
    {content : Content}
    {context : String}
    {members : Json.Members}
    {carrier : content.Carrier}
    (decoded : content.decode context (.object members) = .ok carrier) :
    ∃ family, content = .node family := by
  cases content with
  | node family => exact ⟨family, rfl⟩
  | _ => cases decoded

/-- Only lists of nodes are read from arrays. -/
theorem eq_nodes_of_decode_array
    {content : Content}
    {context : String}
    {items : List Json}
    {carrier : content.Carrier}
    (decoded : content.decode context (.array items) = .ok carrier) :
    ∃ family, content = .nodes family := by
  cases content with
  | nodes family => exact ⟨family, rfl⟩
  | node family => cases family <;> cases decoded
  | _ => cases decoded

/-- Where a path leads to an object in a document that is read, it leads to the document of
a node. -/
theorem exists_reaches_of_part?
    {content : Content}
    {context : String}
    {document : Json}
    {carrier : content.Carrier}
    (decoded : content.decode context document = .ok carrier)
    {path : Json.Path}
    {members : Json.Members}
    (found : document.part? path = some (.object members)) :
    ∃ inner, content.Reaches inner document path := by
  induction path generalizing content context document with
  | nil =>
      obtain rfl : document = .object members := by simpa using found
      obtain ⟨family, rfl⟩ := eq_node_of_decode_object decoded
      exact ⟨family, .here _⟩
  | cons step path inductionHypothesis =>
      cases document <;> cases step <;> simp only [Json.part?, Option.bind_eq_some_iff] at found
      case array.index items index =>
          obtain ⟨item, foundItem, found⟩ := found
          obtain ⟨family, rfl⟩ := eq_nodes_of_decode_array decoded
          obtain ⟨_, same, read⟩ := decode_nodes_eq_ok_iff.mp decoded
          obtain rfl := Json.array.inj same
          obtain ⟨node, _, readItem⟩ :=
            Json.exists_of_forall₂ read item (List.mem_of_getElem? foundItem)
          rw [← decode_node context] at readItem
          obtain ⟨inner, reaches⟩ := inductionHypothesis readItem found
          exact ⟨inner, .item foundItem reaches⟩
      case object.key members key =>
          obtain ⟨part, foundPart, found⟩ := found
          obtain ⟨family, rfl⟩ := eq_node_of_decode_object decoded
          rw [decode_node] at decoded
          obtain ⟨form, field, known, isField, rfl, ⟨argument, readPart⟩, _⟩ :=
            Family.exists_field_of_lookup decoded foundPart
          obtain ⟨inner, reaches⟩ := inductionHypothesis readPart found
          exact ⟨inner, .field field known isField foundPart reaches⟩
      all_goals cases found

end Content
end Wire

namespace State

variable {document entry : Json} {index : Nat} {path : Json.Path} {members : Json.Members}

/-- In an entry of the accounts there are objects only in the owner and in the asset. -/
theorem exists_reaches_of_readsBalance
    {binding : Account × Nat}
    (reads : ReadsBalance entry binding)
    (foundEntry : document.part? [.key "accounts", .index index] = some entry)
    (found : entry.part? path = some (.object members)) :
    ∃ inner, Reaches inner document ([.key "accounts", .index index] ++ path) := by
  obtain ⟨owner, asset, rfl, readOwner, readAsset⟩ := reads
  have foundInside (place : Json.Path) :
      document.part? ([.key "accounts", .index index] ++ place) =
        (Json.array [.array [owner, asset], .integer binding.2]).part? place := by
    rw [Json.part?_append, foundEntry, Option.bind_some]
  rcases Json.part?_pair_eq_some found (by simp) with
    ⟨behind, rfl, foundKey⟩ | ⟨behind, rfl, foundAmount⟩
  · rcases Json.part?_pair_eq_some foundKey (by simp) with
      ⟨further, rfl, found⟩ | ⟨further, rfl, found⟩
    · obtain ⟨inner, reaches⟩ := Wire.Content.exists_reaches_of_part? readOwner found
      have foundOwner := (foundInside [.index 0, .index 0]).trans (Json.part?_nil owner)
      exact ⟨inner, .owner foundOwner reaches⟩
    · obtain ⟨inner, reaches⟩ := Wire.Content.exists_reaches_of_part? readAsset found
      have foundAsset := (foundInside [.index 0, .index 1]).trans (Json.part?_nil asset)
      exact ⟨inner, .asset foundAsset reaches⟩
  · exact absurd foundAmount (Json.part?_integer_ne_object _ _ _)

/-- In an entry of the choices there are objects only in the choice. -/
theorem exists_reaches_of_readsChoice
    {binding : ChoiceId × Int}
    (reads : ReadsChoice entry binding)
    (foundEntry : document.part? [.key "choices", .index index] = some entry)
    (found : entry.part? path = some (.object members)) :
    ∃ inner, Reaches inner document ([.key "choices", .index index] ++ path) := by
  obtain ⟨choice, rfl, readChoice⟩ := reads
  rcases Json.part?_pair_eq_some found (by simp) with
    ⟨further, rfl, found⟩ | ⟨further, rfl, foundChosen⟩
  · obtain ⟨inner, reaches⟩ := Wire.Content.exists_reaches_of_part? readChoice found
    have foundChoice : document.part? ([.key "choices", .index index] ++ [.index 0]) =
        some choice := by
      rw [Json.part?_append, foundEntry]
      exact Json.part?_nil choice
    exact ⟨inner, .choice foundChoice reaches⟩
  · exact absurd foundChosen (Json.part?_integer_ne_object _ _ _)

/-- There is no object in an entry of the named values. -/
theorem part?_ne_object_of_readsBinding
    {binding : String × Int}
    (reads : ReadsBinding entry binding) :
    entry.part? path ≠ some (.object members) := by
  intro found
  rw [show entry = .array [.string binding.1, .integer binding.2] from reads] at found
  rcases Json.part?_pair_eq_some found (by simp) with ⟨_, _, found⟩ | ⟨_, _, found⟩
  · exact Json.part?_string_ne_object _ _ _ found
  · exact Json.part?_integer_ne_object _ _ _ found

/-- What is among the entries under a key and is no array is in one of the entries, which
is read as a binding. -/
theorem exists_entry_of_part?
    {β : Type}
    {readsAs : Json → β → Prop}
    {entries : List Json}
    {bindings : List β}
    (reads : List.Forall₂ readsAs entries bindings)
    {part : Json}
    (found : (Json.array entries).part? path = some part)
    (noArray : ∀ items, part ≠ .array items) :
    ∃ index entry binding further, path = .index index :: further ∧
      entries[index]? = some entry ∧ readsAs entry binding ∧
      entry.part? further = some part := by
  rcases path with _ | ⟨key | index, further⟩
  · exact absurd (Option.some.inj found).symm (noArray _)
  · cases found
  · obtain ⟨entry, foundEntry, found⟩ := Option.bind_eq_some_iff.mp found
    obtain ⟨binding, _, readsEntry⟩ :=
      Json.exists_of_forall₂ reads entry (List.mem_of_getElem? foundEntry)
    exact ⟨index, entry, binding, further, rfl, foundEntry, readsEntry, found⟩

/-- Where a path leads to an object inside the document of a state, it leads to the
document of a node. -/
theorem exists_reaches_of_part?
    {state : State}
    (decoded : decode document = .ok state)
    {step : Json.Step}
    (found : document.part? (step :: path) = some (.object members)) :
    ∃ inner, Reaches inner document (step :: path) := by
  obtain ⟨listed, rfl, decoded⟩ := decode_eq_ok_iff.mp decoded
  obtain ⟨within, ⟨accounts, _, foundAccounts, readAccounts, _⟩,
    ⟨choices, _, foundChoices, readChoices, _⟩,
    ⟨values, _, foundValues, readValues, _⟩, foundTime⟩ := decodeMembers_eq_ok_iff.mp decoded
  cases step with
  | index => cases found
  | key key =>
      obtain ⟨part, foundPart, found⟩ := Option.bind_eq_some_iff.mp found
      have isKey := within key (Json.Members.mem_keys_of_lookup_eq_some foundPart)
      simp only [documentKeys, List.mem_cons, List.not_mem_nil, or_false] at isKey
      rcases isKey with rfl | rfl | rfl | rfl
      · obtain rfl := Option.some.inj (foundAccounts.symm.trans foundPart)
        obtain ⟨index, entry, binding, further, rfl, foundEntry, reads, found⟩ :=
          exists_entry_of_part? readAccounts found (by simp)
        refine exists_reaches_of_readsBalance reads ?_ found
        rw [Json.part?_key foundAccounts, Json.part?_index foundEntry, Json.part?_nil]
      · obtain rfl := Option.some.inj (foundChoices.symm.trans foundPart)
        obtain ⟨index, entry, binding, further, rfl, foundEntry, reads, found⟩ :=
          exists_entry_of_part? readChoices found (by simp)
        refine exists_reaches_of_readsChoice reads ?_ found
        rw [Json.part?_key foundChoices, Json.part?_index foundEntry, Json.part?_nil]
      · obtain rfl := Option.some.inj (foundValues.symm.trans foundPart)
        obtain ⟨_, _, _, _, _, _, reads, found⟩ :=
          exists_entry_of_part? readValues found (by simp)
        exact absurd found (part?_ne_object_of_readsBinding reads)
      · obtain rfl := Option.some.inj (foundTime.symm.trans foundPart)
        exact absurd found (Json.part?_integer_ne_object _ _ _)

end State

namespace Canonical.Kind

/-- Every object in a document that is read is the document of a value of some kind, and
whatever is refused as such a value is refused in its place, for the same reason. -/
theorem exists_kind_of_part?
    (kind : Kind)
    {document : Json}
    {value : kind.Carrier}
    (decoded : decode document = .ok value)
    {path : Json.Path}
    {members : Json.Members}
    (found : document.part? path = some (.object members)) :
    ∃ (inner : Kind) (node : inner.Carrier), decode (.object members) = .ok node ∧
      ∀ other reason, (decode other : Decoded inner.Carrier) = .error reason →
        (decode (document.put path other) : Decoded kind.Carrier) = .error reason := by
  cases kind with
  | node family =>
      rw [decode_node] at decoded
      obtain ⟨inner, reaches⟩ := Wire.Content.exists_reaches_of_part?
        ((Wire.Content.decode_node family.label family document).trans decoded) found
      obtain ⟨part, old, foundPart, readPart, hole, _, _, readOther⟩ :=
        Wire.Family.exists_hole_of_reaches reaches decoded
      obtain rfl := Option.some.inj (found.symm.trans foundPart)
      refine ⟨.node inner, old, (decode_node inner _).trans readPart,
        fun other reason refused => ?_⟩
      rw [decode_node] at refused
      rw [decode_node, readOther, refused]
      rfl
  | state =>
      cases path with
      | nil =>
          obtain rfl : document = .object members := by simpa using found
          refine ⟨.state, value, decoded, fun other reason refused => ?_⟩
          rwa [Json.put_nil]
      | cons step path =>
          obtain ⟨inner, reaches⟩ := State.exists_reaches_of_part? decoded found
          obtain ⟨part, old, foundPart, readPart, refuse⟩ := State.exists_of_reaches reaches decoded
          obtain rfl := Option.some.inj (found.symm.trans foundPart)
          refine ⟨.node inner, old, (decode_node inner _).trans readPart,
            fun other reason refused => ?_⟩
          rw [decode_node] at refused
          exact refuse other reason refused

end Canonical.Kind
end Covenant
