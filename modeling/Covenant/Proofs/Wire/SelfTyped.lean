import Covenant.Proofs.Wire.Entries
import Covenant.Proofs.Wire.Kind

/-!
# Documents tell their kind

A document stands for a value of at most one kind.  Atoms of different families are
different words or values, and forms of different families have different keys, with one
exception: a contract and a value may both choose between alternatives by `if`, `then`
and `else`.  These two are told apart by what stands under a key that they share, so the
argument goes by induction from the parts of a document to the whole
(`Wire.Family.eq_of_decode_eq_ok`).
-/

namespace Covenant
namespace Wire

/-- Whether two fields hold nodes of different families. -/
def Content.apart : Content → Content → Bool
  | node family, node family' => family ≠ family'
  | _, _ => false

theorem Content.apart_iff
    {content content' : Content} :
    content.apart content' = true ↔
      ∃ family family', content = .node family ∧ content' = .node family' ∧
        family ≠ family' := by
  cases content <;> cases content' <;> simp [apart]

namespace Family

/-- Two forms of different families do not have the same keys, unless they hold nodes of
different families under a key. -/
theorem forms_told_apart (family family' : Family) (different : family ≠ family') :
    ∀ form ∈ family.forms, ∀ form' ∈ family'.forms,
      (∃ key ∈ form.keys, key ∉ form'.keys) ∨ (∃ key ∈ form'.keys, key ∉ form.keys) ∨
        ∃ field ∈ form.fields, ∃ field' ∈ form'.fields,
          field.key = field'.key ∧ field.content.apart field'.content = true := by
  cases family <;> cases family' <;> first | exact absurd rfl different | decide

/-- No form has the keys of a state. -/
theorem exists_key_not_mem_documentKeys (family : Family) :
    ∀ form ∈ family.forms, ∃ key ∈ form.keys, key ∉ State.documentKeys := by
  cases family <;> decide

/-- The family of which a document may be an atom. -/
def ofAtom? : Json → Option Family
  | .string "close" => some contract
  | .string "input_notify" => some input
  | .string "time_interval_start" => some value
  | .string "time_interval_end" => some value
  | .number _ => some value
  | .bool _ => some observation
  | _ => none

theorem ofAtom?_eq_some_of_readAtom
    {document : Json}
    {family : Family}
    {node : family.Node}
    (read : family.readAtom document = .ok node) :
    ofAtom? document = some family := by
  unfold readAtom at read
  split at read
  case h_7 => cases read
  all_goals rfl

end Family

theorem Arguments.Each.exists_of_mem
    {holds : (field : Field) → field.content.Carrier → Prop}
    {fields : List Field}
    {arguments : Arguments fields}
    (each : Each holds fields arguments)
    {field : Field}
    (listed : field ∈ fields) :
    ∃ argument, holds field argument := by
  induction fields with
  | nil => simp at listed
  | cons first rest inductionHypothesis =>
      rcases List.mem_cons.mp listed with rfl | listed
      · exact ⟨arguments.1, each.1⟩
      · exact inductionHypothesis each.2 listed

namespace Family

/-- An object that stands for a node has the keys of a form, and what it has under each
of them is read. -/
theorem exists_form_of_decode_object
    {family : Family}
    {members : Json.Members}
    {node : family.Node}
    (decoded : family.decode (.object members) = .ok node) :
    ∃ form ∈ family.forms, (∀ key, key ∈ Json.Members.keys members ↔ key ∈ form.keys) ∧
      ∀ field ∈ form.fields, ∃ document, members.lookup field.key = some document ∧
        ∃ argument, field.content.decode form.name document = .ok argument := by
  obtain ⟨form, known, within, arguments, read, _⟩ := decode_object_eq_ok_iff.mp decoded
  have found : ∀ field ∈ form.fields, ∃ document, members.lookup field.key = some document ∧
      ∃ argument, field.content.decode form.name document = .ok argument := by
    intro field listed
    obtain ⟨argument, document, lookedUp, read⟩ := read.exists_of_mem listed
    exact ⟨document, lookedUp, argument, read⟩
  refine ⟨form, List.mem_of_find?_eq_some known, fun key => ⟨within key, ?_⟩, found⟩
  intro isKey
  obtain ⟨field, listed, rfl⟩ := List.mem_map.mp isKey
  obtain ⟨document, lookedUp, _⟩ := found field listed
  exact Json.Members.mem_keys_of_lookup_eq_some lookedUp

/-- A document stands for nodes of one family at most. -/
theorem eq_of_decode_eq_ok
    {document : Json}
    {family family' : Family}
    {node : family.Node}
    {node' : family'.Node}
    (decoded : family.decode document = .ok node)
    (decoded' : family'.decode document = .ok node') :
    family = family' := by
  induction document using Json.inductionOnParts generalizing family family' with
  | step document inductionHypothesis =>
      by_cases isObject : ∃ members, document = .object members
      · obtain ⟨members, rfl⟩ := isObject
        by_contra different
        obtain ⟨form, listed, keys, read⟩ := exists_form_of_decode_object decoded
        obtain ⟨form', listed', keys', read'⟩ := exists_form_of_decode_object decoded'
        rcases forms_told_apart family family' different form listed form' listed' with
          ⟨key, has, lacks⟩ | ⟨key, has, lacks⟩ | ⟨field, isField, field', isField', same, apart⟩
        · exact lacks ((keys' key).mp ((keys key).mpr has))
        · exact lacks ((keys key).mp ((keys' key).mpr has))
        · obtain ⟨part, lookedUp, argument, read⟩ := read field isField
          obtain ⟨part', lookedUp', argument', read'⟩ := read' field' isField'
          obtain rfl : part = part' := Option.some.inj (lookedUp.symm.trans (same ▸ lookedUp'))
          obtain ⟨key, content⟩ := field
          obtain ⟨key', content'⟩ := field'
          obtain ⟨inner, inner', rfl, rfl, differentInner⟩ := Content.apart_iff.mp apart
          have inside := Json.mem_parts_object (Json.Members.mem_of_lookup_eq_some lookedUp)
          rw [Content.decode_node] at read read'
          exact differentInner (inductionHypothesis part inside read read')
      · rw [decode_eq_readAtom (not_exists.mp isObject)] at decoded decoded'
        have same := ofAtom?_eq_some_of_readAtom decoded
        exact Option.some.inj (same.symm.trans (ofAtom?_eq_some_of_readAtom decoded'))

/-- A document that stands for a state stands for no node. -/
theorem decode_ne_ok_of_state
    {document : Json}
    {state : State}
    (decoded : State.decode document = .ok state)
    (family : Family)
    (node : family.Node) :
    family.decode document ≠ .ok node := by
  intro decodedNode
  obtain ⟨members, rfl, decoded⟩ := State.decode_eq_ok_iff.mp decoded
  obtain ⟨within, _⟩ := State.decodeMembers_eq_ok_iff.mp decoded
  obtain ⟨form, listed, keys, _⟩ := exists_form_of_decode_object decodedNode
  obtain ⟨key, has, lacks⟩ := exists_key_not_mem_documentKeys family form listed
  exact lacks (within key ((keys key).mpr has))

end Family
end Wire

namespace Canonical.Kind

/-- A document that stands for a value of one kind stands for none of any other kind. -/
theorem exists_decode_eq_error_of_ne
    {kind kind' : Kind}
    (different : kind ≠ kind')
    {document : Json}
    {value : kind.Carrier}
    (decoded : decode document = .ok value) :
    ∃ reason, (decode document : Decoded kind'.Carrier) = .error reason := by
  cases decoded' : (decode document : Decoded kind'.Carrier) with
  | error reason => exact ⟨reason, rfl⟩
  | ok value' =>
      refine absurd ?_ different
      cases kind with
      | node family =>
          rw [decode_node] at decoded
          cases kind' with
          | node family' =>
              rw [decode_node] at decoded'
              rw [Wire.Family.eq_of_decode_eq_ok decoded decoded']
          | state => exact absurd decoded (Wire.Family.decode_ne_ok_of_state decoded' _ _)
      | state =>
          cases kind' with
          | node family' =>
              rw [decode_node] at decoded'
              exact absurd decoded' (Wire.Family.decode_ne_ok_of_state decoded _ _)
          | state => rfl

/-- A choice between values whose alternatives are such choices themselves. -/
def nestedChoice : Json :=
  .object [("if", .bool true), ("then", .object [("if", .bool false), ("then", .number "1"),
    ("else", .string "time_interval_end")]), ("else", .number "-2")]

theorem exists_decode_nestedChoice_eq_error :
    node .value ≠ node .contract ∧
      (decode nestedChoice : Decoded (node .value).Carrier) =
        .ok (.cond (.truth true) (.cond (.truth false) (.constant 1) .intervalEnd)
          (.constant (-2))) ∧
      ∃ reason, (decode nestedChoice : Decoded (node .contract).Carrier) = .error reason := by
  have different : node .value ≠ node .contract := by simp
  exact ⟨different, by rfl, exists_decode_eq_error_of_ne different (by rfl)⟩

end Canonical.Kind
end Covenant
