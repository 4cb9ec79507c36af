import Covenant.Proofs.Wire.KeyOrder
import Covenant.Proofs.Wire.Places
import Covenant.Proofs.Wire.RoundTrip

/-!
# Reading is compositional

Where a document is read as a node, the document of a node inside can be replaced by any
other document.  If that one is refused, the whole is refused for the same reason; if it
is read as a node, the whole is read with the new node in the place of the old one
(`Wire.Content.exists_hole_of_reaches`).  In its canonical document the new node then has
its own document at the same path (`Wire.Hole.part?_encode_fill`).
-/

namespace Covenant
namespace Decoded

theorem map_map
    {α β γ : Type}
    (read : Decoded α)
    (change : α → β)
    (further : β → γ) :
    (read.map change).map further = read.map fun value => further (change value) := by
  cases read <;> rfl

end Decoded

namespace Wire

namespace Arguments

/-- The argument that was set for a field is written under its key. -/
theorem mem_write_set
    {field : Field}
    {fields : List Field}
    (isField : field ∈ fields)
    (argument : field.content.Carrier)
    {arguments : Arguments fields} :
    (field.key, field.content.encode argument) ∈
      write fields (set field argument fields arguments) := by
  induction fields with
  | nil => simp at isField
  | cons first rest inductionHypothesis =>
      obtain ⟨found, arguments⟩ := arguments
      by_cases same : field = first
      · subst same
        rw [set_cons_self, write]
        exact List.mem_cons_self
      · rw [set_cons_of_ne same, write]
        have behind := (List.mem_cons.mp isField).resolve_left same
        exact List.mem_cons_of_mem _ (inductionHypothesis behind)

end Arguments

namespace Content

/-- The items around an item of an array that is read are read too. -/
theorem exists_of_forall₂_append_cons
    {α β : Type}
    {related : α → β → Prop}
    {before behind : List α}
    {item : α}
    {values : List β}
    (all : List.Forall₂ related (before ++ item :: behind) values) :
    ∃ valuesBefore value valuesBehind, values = valuesBefore ++ value :: valuesBehind ∧
      List.Forall₂ related before valuesBefore ∧ related item value ∧
      List.Forall₂ related behind valuesBehind := by
  induction before generalizing values with
  | nil =>
      obtain ⟨value, valuesBehind, relatedItem, relatedBehind, rfl⟩ :=
        List.forall₂_cons_left_iff.mp all
      exact ⟨[], value, valuesBehind, rfl, .nil, relatedItem, relatedBehind⟩
  | cons first before inductionHypothesis =>
      obtain ⟨firstValue, values, relatedFirst, relatedRest, rfl⟩ :=
        List.forall₂_cons_left_iff.mp all
      obtain ⟨valuesBefore, value, valuesBehind, rfl, relatedBefore, others⟩ :=
        inductionHypothesis relatedRest
      exact ⟨firstValue :: valuesBefore, value, valuesBehind, rfl,
        .cons relatedFirst relatedBefore, others⟩

/-- If the items around an item are read, whether the array is read depends on that
item. -/
theorem decodeItems_append_cons
    {family : Family}
    {before behind : List Json}
    {nodesBefore nodesBehind : List family.Node}
    (readBefore : List.Forall₂ (fun item node => family.decode item = .ok node) before nodesBefore)
    (readBehind : List.Forall₂ (fun item node => family.decode item = .ok node) behind nodesBehind)
    (item : Json) :
    decodeItems family (before ++ item :: behind) =
      (family.decode item).map fun node => nodesBefore ++ node :: nodesBehind := by
  induction readBefore with
  | nil =>
      rw [List.nil_append, decodeItems, decode_node, decodeItems_eq_ok_iff.mpr readBehind]
      cases family.decode item <;> rfl
  | cons readFirst _ inductionHypothesis =>
      rw [List.cons_append, decodeItems, decode_node, readFirst, inductionHypothesis]
      cases family.decode item <;> rfl

end Content

namespace Family

/-- An object of a known form, without extra keys, is read field by field. -/
theorem decode_object_of_form?
    {family : Family}
    {members : Json.Members}
    {form : Form family.Node}
    (known : family.form? members = some form)
    (within : ∀ key ∈ Json.Members.keys members, key ∈ form.keys) :
    family.decode (.object members) =
      (Arguments.read (fun field => Content.decodeField form.name field members)
        form.fields).map form.build.apply := by
  have noExtra := Json.Members.extraKey?_eq_none_iff.mpr within
  simp only [decode, Content.decode, known, noExtra]

/-- Under distinct keys, one key belongs to one field. -/
theorem eq_of_key_eq
    {family : Family}
    {form : Form family.Node}
    (listed : form ∈ family.forms)
    {field field' : Field}
    (isField : field ∈ form.fields)
    (isField' : field' ∈ form.fields)
    (same : field.key = field'.key) :
    field = field' :=
  List.inj_on_of_nodup_map (nodup_keys family form listed) isField isField' same

/-- If an object is read as a node, then with another value for the key of one field it
is read as the node that the form builds with another argument, provided that the value
is read as that argument. -/
theorem decode_object_set
    {family : Family}
    {form : Form family.Node}
    {members : Json.Members}
    (known : family.form? members = some form)
    (within : ∀ key ∈ Json.Members.keys members, key ∈ form.keys)
    {arguments : Arguments form.fields}
    (read : Arguments.Each
      (fun field argument => ∃ document, members.lookup field.key = some document ∧
        field.content.decode form.name document = .ok argument)
      form.fields arguments)
    {field : Field}
    (isField : field ∈ form.fields)
    (value : Json) :
    family.decode (.object (Json.Members.set field.key value members)) =
      (field.content.decode form.name value).map fun argument =>
        form.build.apply (Arguments.set field argument form.fields arguments) := by
  have listed := List.mem_of_find?_eq_some known
  obtain ⟨_, ⟨_, found, _⟩, _⟩ := read.exists_set_eq isField
  have sameKeys := Json.Members.keys_set_of_mem value
    (Json.Members.mem_keys_of_lookup_eq_some found)
  have knownSet : family.form? (Json.Members.set field.key value members) = some form := by
    rw [← known]
    exact family.form?_eq_of_perm (sameKeys ▸ .refl _)
  have readValue : Content.decodeField form.name field (Json.Members.set field.key value members) =
      field.content.decode form.name value := by
    rw [Content.decodeField_eq, Json.Members.lookup_set_self]
  have readOthers : Arguments.Each
      (fun other argument => other ≠ field →
        Content.decodeField form.name other (Json.Members.set field.key value members) =
          .ok argument)
      form.fields arguments := by
    refine read.imp_of_mem fun other isOther argument readOther different => ?_
    have otherKey : other.key ≠ field.key := fun same =>
      different (eq_of_key_eq listed isOther isField same)
    rw [Content.decodeField_eq_ok_iff, Json.Members.lookup_set_of_ne otherKey]
    exact readOther
  have distinct : form.fields.Nodup := List.Nodup.of_map _ (nodup_keys family form listed)
  rw [decode_object_of_form? knownSet (sameKeys ▸ within),
    Arguments.read_eq_map_set distinct isField readOthers, readValue, Decoded.map_map]

/-- In an object that is read as a node, every key is that of a field.  The value of the key
is read for this field, and so is any other value in its place. -/
theorem exists_field_of_lookup
    {family : Family}
    {members : Json.Members}
    {node : family.Node}
    (decoded : family.decode (.object members) = .ok node)
    {key : String}
    {part : Json}
    (found : members.lookup key = some part) :
    ∃ form field, family.form? members = some form ∧ field ∈ form.fields ∧ field.key = key ∧
      (∃ argument, field.content.decode form.name part = .ok argument) ∧
      ∃ arguments, form.build.apply arguments = node ∧
        ∀ other, family.decode (.object (Json.Members.set key other members)) =
          (field.content.decode form.name other).map fun argument =>
            form.build.apply (Arguments.set field argument form.fields arguments) := by
  obtain ⟨form, known, within, arguments, read, built⟩ := decode_object_eq_ok_iff.mp decoded
  have isKey := within key (Json.Members.mem_keys_of_lookup_eq_some found)
  obtain ⟨field, isField, rfl⟩ := List.mem_map.mp isKey
  obtain ⟨argument, ⟨_, lookedUp, readPart⟩, _⟩ := read.exists_set_eq isField
  obtain rfl := Option.some.inj (found.symm.trans lookedUp)
  exact ⟨form, field, known, isField, rfl, ⟨argument, readPart⟩, arguments, built,
    decode_object_set known within read isField⟩

end Family

namespace Content

variable {inner : Family}

/-- Where a path leads to the document of a node, the content that is read has a hole, and
with other documents at the path the hole is filled by what these are read as. -/
theorem exists_hole_of_reaches
    {content : Content}
    {document : Json}
    {path : Json.Path}
    (reaches : content.Reaches inner document path)
    {context : String}
    {carrier : content.Carrier}
    (decoded : content.decode context document = .ok carrier) :
    ∃ part old, document.part? path = some part ∧ inner.decode part = .ok old ∧
      ∃ hole : Hole inner content, hole.path = path ∧ hole.fill old = carrier ∧
        ∀ other, content.decode context (document.put path other) =
          (inner.decode other).map hole.fill := by
  induction reaches generalizing context with
  | here document =>
      rw [decode_node] at decoded
      refine ⟨document, carrier, document.part?_nil, decoded, .here, rfl, rfl, fun other => ?_⟩
      rw [document.put_nil, decode_node]
      cases inner.decode other <;> rfl
  | @item family items index item path found _ inductionHypothesis =>
      obtain ⟨_, same, read⟩ := decode_nodes_eq_ok_iff.mp decoded
      obtain rfl := Json.array.inj same
      obtain ⟨before, behind, rfl, rfl, replaced⟩ := Json.exists_eq_append_cons found
      obtain ⟨nodesBefore, node, nodesBehind, rfl, readBefore, readItem, readBehind⟩ :=
        exists_of_forall₂_append_cons read
      obtain ⟨inside, old, foundInside, readInside, hole, samePath, filled, readOther⟩ :=
        inductionHypothesis ((decode_node context family item).trans readItem)
      refine ⟨inside, old, ?_, readInside, .item nodesBefore nodesBehind hole, ?_, ?_,
        fun other => ?_⟩
      · rw [Json.part?_index found, foundInside]
      · rw [Hole.path, samePath, readBefore.length_eq]
      · rw [Hole.fill, filled]
      · rw [Json.put_index found, replaced, decode,
          decodeItems_append_cons readBefore readBehind, ← decode_node context, readOther,
          Decoded.map_map]
        rfl
  | @field family form members field part path known isField found _ inductionHypothesis =>
      rw [decode_node] at decoded
      obtain ⟨form', known', within, arguments, read, rfl⟩ :=
        Family.decode_object_eq_ok_iff.mp decoded
      obtain rfl : form = form' := Option.some.inj (known.symm.trans known')
      have listed := List.mem_of_find?_eq_some known
      obtain ⟨argument, ⟨value, lookedUp, readValue⟩, unchanged⟩ := read.exists_set_eq isField
      obtain rfl : part = value := Option.some.inj (found.symm.trans lookedUp)
      obtain ⟨inside, old, foundInside, readInside, hole, samePath, filled, readOther⟩ :=
        inductionHypothesis readValue
      refine ⟨inside, old, ?_, readInside, .argument form arguments field listed isField hole,
        ?_, ?_, fun other => ?_⟩
      · rw [Json.part?_key found, foundInside]
      · rw [Hole.path, samePath]
      · rw [Hole.fill, filled, unchanged]
      · rw [Json.put_key found, decode_node, Family.decode_object_set known within read isField,
          readOther, Decoded.map_map]
        rfl

end Content

/-- Where a path leads to the document of a node inside another one, that one has a hole
at the path, and reading with other documents in the place of the inner one is reading
those and filling the hole. -/
theorem Family.exists_hole_of_reaches
    {family inner : Family}
    {document : Json}
    {path : Json.Path}
    (reaches : Content.Reaches inner (.node family) document path)
    {node : family.Node}
    (decoded : family.decode document = .ok node) :
    ∃ part old, document.part? path = some part ∧ inner.decode part = .ok old ∧
      ∃ hole : Hole inner (.node family), hole.path = path ∧ hole.fill old = node ∧
        ∀ other, family.decode (document.put path other) =
          (inner.decode other).map hole.fill :=
  have decoded : Content.decode family.label (.node family) document = .ok node := decoded
  Content.exists_hole_of_reaches reaches decoded

/-- A node that is put into a hole has its document at the path of the hole. -/
theorem Hole.part?_encode_fill
    {inner : Family}
    {content : Content}
    (hole : Hole inner content)
    (node : inner.Node) :
    (content.encode (hole.fill node)).part? hole.path = some (inner.encode node) := by
  induction hole with
  | here => exact Json.part?_nil _
  | @item family before behind inside inductionHypothesis =>
      have found : ((before ++ inside.fill node :: behind).map family.encode)[before.length]? =
          some (family.encode (inside.fill node)) := by simp
      rw [Hole.path, Hole.fill, Content.encode, Json.part?_index found]
      exact inductionHypothesis
  | @argument family form arguments field listed isField inside inductionHypothesis =>
      obtain ⟨members, same, written⟩ := Family.encode_build listed
        (Arguments.set field (inside.fill node) form.fields arguments)
      have distinct : (Json.Members.keys members).Nodup :=
        (Arguments.keys_perm_of_perm_write written).nodup_iff.mpr
          (Family.nodup_keys family form listed)
      have found : members.lookup field.key = some (field.content.encode (inside.fill node)) :=
        (Json.Members.lookup_eq_some_iff distinct).mpr
          (written.mem_iff.mpr (Arguments.mem_write_set isField _))
      rw [Hole.path, Hole.fill, Content.encode, same, Json.part?_key found]
      exact inductionHypothesis

end Wire
end Covenant
