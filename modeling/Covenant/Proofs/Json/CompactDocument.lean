import Covenant.Proofs.Json.CompactText

/-!
# Documents of compact texts

What a legible document writes is the document itself: nothing in it is a wrapped
number, no key is dropped, and nothing is higher than before.  So the compact text of a
legible document stands for that document unless the document is too high
(`Json.parse?_compact`), and in any case it is the text of no other
(`Json.Legible.eq_of_compact_eq`).
-/

namespace Covenant
namespace Json

namespace Members

theorem set_of_not_mem
    {key : String}
    (value : Json)
    {members : Members}
    (absent : key ∉ keys members) :
    set key value members = members ++ [(key, value)] := by
  induction members with
  | nil => rfl
  | cons member members inductionHypothesis =>
      obtain ⟨other, old⟩ := member
      have different : other ≠ key := fun same => absent (same ▸ List.mem_cons_self)
      have absentBehind : key ∉ keys members := fun listed => absent (List.mem_cons_of_mem _ listed)
      rw [set, if_neg different, inductionHypothesis absentBehind, List.cons_append]

theorem foldl_set_of_nodup
    {before members : Members}
    (distinct : (keys (before ++ members)).Nodup) :
    members.foldl (fun members member => set member.1 member.2 members) before =
      before ++ members := by
  induction members generalizing before with
  | nil => rw [List.foldl_nil, List.append_nil]
  | cons member members inductionHypothesis =>
      have absent : member.1 ∉ keys before := by
        intro listed
        rw [keys, List.map_append, List.nodup_append] at distinct
        exact distinct.2.2 _ listed _ List.mem_cons_self rfl
      have together : before ++ [member] ++ members = before ++ member :: members := by simp
      rw [List.foldl_cons, set_of_not_mem _ absent, inductionHypothesis, together]
      rwa [together]

/-- Members with distinct keys are kept as they are written. -/
theorem ofWritten_of_nodup
    {members : Members}
    (distinct : (keys members).Nodup) :
    ofWritten members = members :=
  @foldl_set_of_nodup [] members distinct

end Members

namespace Written

theorem height_ofDocument (document : Json) : (ofDocument document).height = document.height := by
  induction document using inductionOnParts with
  | step document inductionHypothesis =>
      cases document with
      | array items =>
          have sameItems : heightOfItems (ofItems items) = Json.heightOfItems items := by
            rw [parts_array] at inductionHypothesis
            induction items with
            | nil => rfl
            | cons item items same =>
                obtain ⟨sameItem, sameItems⟩ := List.forall_mem_cons.mp inductionHypothesis
                rw [ofItems, heightOfItems, Json.heightOfItems, sameItem, same sameItems]
          rw [ofDocument, height, Json.height, sameItems]
      | object members =>
          have sameMembers :
              heightOfMembers (ofMembers members) = Json.heightOfMembers members := by
            rw [parts_object, List.forall_mem_map] at inductionHypothesis
            induction members with
            | nil => rfl
            | cons member members same =>
                obtain ⟨sameMember, sameMembers⟩ := List.forall_mem_cons.mp inductionHypothesis
                rw [ofMembers, heightOfMembers, Json.heightOfMembers, sameMember,
                  same sameMembers]
          rw [ofDocument, height, Json.height, sameMembers]
      | _ => rfl

theorem wrapsNumber_ofMembers
    {members : Json.Members}
    (noNumber : numberKey ∉ Members.keys members) :
    wrapsNumber (ofMembers members) = false := by
  cases members with
  | nil => rfl
  | cons member members =>
      have different : member.1 ≠ numberKey := fun same => noNumber (same ▸ List.mem_cons_self)
      exact decide_eq_false fun same => different (Option.some.inj same)

theorem unwrapItems?_ofItems
    {items : List Json}
    (same : ∀ item ∈ items, unwrap? (ofDocument item) = some (ofDocument item)) :
    unwrapItems? (ofItems items) = some (ofItems items) := by
  induction items with
  | nil => rfl
  | cons item items inductionHypothesis =>
      obtain ⟨sameItem, sameItems⟩ := List.forall_mem_cons.mp same
      rw [ofItems, unwrapItems?, sameItem, inductionHypothesis sameItems]
      rfl

theorem unwrapMembers?_ofMembers
    {members : Json.Members}
    (same : ∀ member ∈ members, unwrap? (ofDocument member.2) = some (ofDocument member.2)) :
    unwrapMembers? (ofMembers members) = some (ofMembers members) := by
  induction members with
  | nil => rfl
  | cons member members inductionHypothesis =>
      obtain ⟨sameMember, sameMembers⟩ := List.forall_mem_cons.mp same
      rw [ofMembers, unwrapMembers?, sameMember, inductionHypothesis sameMembers]
      rfl

theorem unwrap?_ofDocument
    {document : Json}
    (legible : document.Legible) :
    unwrap? (ofDocument document) = some (ofDocument document) := by
  induction legible with
  | array _ same => rw [ofDocument, unwrap?, unwrapItems?_ofItems same, Option.map_some]
  | object _ noNumber _ same =>
      rw [ofDocument, unwrap?, wrapsNumber_ofMembers noNumber, unwrapMembers?_ofMembers same]
      rfl
  | _ => rfl

theorem plainItems?_ofItems
    {items : List Json}
    (same : ∀ item ∈ items, plain? (ofDocument item) = some item) :
    plainItems? (ofItems items) = some items := by
  induction items with
  | nil => rfl
  | cons item items inductionHypothesis =>
      obtain ⟨sameItem, sameItems⟩ := List.forall_mem_cons.mp same
      rw [ofItems, plainItems?, sameItem, inductionHypothesis sameItems]
      rfl

theorem plainMembers?_ofMembers
    {members : Json.Members}
    (same : ∀ member ∈ members, plain? (ofDocument member.2) = some member.2) :
    plainMembers? (ofMembers members) = some members := by
  induction members with
  | nil => rfl
  | cons member members inductionHypothesis =>
      obtain ⟨sameMember, sameMembers⟩ := List.forall_mem_cons.mp same
      rw [ofMembers, plainMembers?, sameMember, inductionHypothesis sameMembers]
      rfl

theorem plain?_ofDocument
    {document : Json}
    (legible : document.Legible) :
    plain? (ofDocument document) = some document := by
  induction legible with
  | array _ same => rw [ofDocument, plain?, plainItems?_ofItems same, Option.map_some]
  | object distinct _ _ same =>
      rw [ofDocument, plain?, plainMembers?_ofMembers same, Option.map_some,
        Members.ofWritten_of_nodup distinct]
  | _ => rfl

end Written

/-- The compact text of a legible document stands for that document, unless the document
nests more arrays and objects than a text may. -/
theorem parse?_compact
    {document : Json}
    (legible : document.Legible) :
    parse? document.compact = if document.height ≤ maxHeight then some document else none := by
  rw [parse?, Written.ofText?_compact legible, Option.bind_some, Written.document?,
    Written.height_ofDocument, Written.unwrap?_ofDocument legible, Option.bind_some,
    Written.plain?_ofDocument legible]

/-- Legible documents have different compact texts, however high they are. -/
theorem Legible.eq_of_compact_eq
    {document document' : Json}
    (legible : document.Legible)
    (legible' : document'.Legible)
    (same : document.compact = document'.compact) :
    document = document' := by
  have written : Written.ofDocument document = Written.ofDocument document' := by
    apply Option.some.inj
    rw [← Written.ofText?_compact legible, same, Written.ofText?_compact legible']
  apply Option.some.inj
  rw [← Written.plain?_ofDocument legible, written, Written.plain?_ofDocument legible']

end Json
end Covenant
