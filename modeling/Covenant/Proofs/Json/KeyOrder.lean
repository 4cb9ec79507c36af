import Covenant.Json.Basic
import Mathlib.Data.List.Forall2
import Mathlib.Data.List.Perm.Basic

/-!
# Documents up to the order of keys

The order in which an object lists its keys carries no meaning.
`Json.SameUpToKeyOrder` relates two documents that differ in nothing else, and
`Json.HasDistinctKeys` holds of documents in which no object repeats a key.
Proofs about documents go by `Json.inductionOnParts`, where whatever stands
directly inside a document may be assumed to have the property already.
-/

namespace Covenant
namespace Json

/-- What stands directly inside a document: the items of an array, or the values of
an object. -/
def parts : Json → List Json
  | array items => items
  | object members => members.map Prod.snd
  | _ => []

@[simp] theorem parts_array (items : List Json) : (array items).parts = items := rfl

@[simp] theorem parts_object (members : Members) :
    (object members).parts = members.map Prod.snd := rfl

theorem mem_parts_object
    {members : Members}
    {key : String}
    {value : Json}
    (listed : (key, value) ∈ members) :
    value ∈ (object members).parts :=
  List.mem_map_of_mem listed

/-- A property holds of every document if it passes from all parts of a document to
the document. -/
@[elab_as_elim]
theorem inductionOnParts
    {motive : Json → Prop}
    (step : ∀ document, (∀ part ∈ document.parts, motive part) → motive document)
    (document : Json) :
    motive document := by
  refine @Json.rec motive
    (fun items => ∀ item ∈ items, motive item)
    (fun members => ∀ member ∈ members, motive member.2)
    (fun member => motive member.2)
    ?_ ?_ ?_ ?_ ?_ ?_ ?_ ?_ ?_ ?_ ?_ document
  · exact step _ (by simp [parts])
  · exact fun _ => step _ (by simp [parts])
  · exact fun _ => step _ (by simp [parts])
  · exact fun _ => step _ (by simp [parts])
  · exact fun items holds => step _ holds
  · intro members holds
    apply step _
    intro part inside
    obtain ⟨member, listed, rfl⟩ := List.mem_map.mp inside
    exact holds member listed
  · simp
  · exact fun _ _ first others => List.forall_mem_cons.mpr ⟨first, others⟩
  · simp
  · exact fun _ _ first others => List.forall_mem_cons.mpr ⟨first, others⟩
  · exact fun _ _ holds => holds

/-- No object in a document, however deep, has a key twice. -/
inductive HasDistinctKeys : Json → Prop
  | null : HasDistinctKeys null
  | bool (value : Bool) : HasDistinctKeys (bool value)
  | number (literal : String) : HasDistinctKeys (number literal)
  | string (text : String) : HasDistinctKeys (string text)
  | array {items : List Json} :
      (∀ item ∈ items, HasDistinctKeys item) →
      HasDistinctKeys (array items)
  | object {members : Members} :
      (Members.keys members).Nodup →
      (∀ member ∈ members, HasDistinctKeys member.2) →
      HasDistinctKeys (object members)

/-- Two documents differ at most in the order in which their objects list their keys,
at any depth: they have the same words and texts, the same number literals, the same
items in the same order, and for the same keys the same values. -/
inductive SameUpToKeyOrder : Json → Json → Prop
  | null : SameUpToKeyOrder null null
  | bool (value : Bool) : SameUpToKeyOrder (bool value) (bool value)
  | number (literal : String) : SameUpToKeyOrder (number literal) (number literal)
  | string (text : String) : SameUpToKeyOrder (string text) (string text)
  | array {items items' : List Json} :
      List.Forall₂ SameUpToKeyOrder items items' →
      SameUpToKeyOrder (array items) (array items')
  | object {members ordered members' : Members} :
      members.Perm ordered →
      Members.keys ordered = Members.keys members' →
      List.Forall₂ SameUpToKeyOrder (ordered.map Prod.snd) (members'.map Prod.snd) →
      SameUpToKeyOrder (object members) (object members')

theorem HasDistinctKeys.part
    {document part : Json}
    (distinct : HasDistinctKeys document)
    (inside : part ∈ document.parts) :
    HasDistinctKeys part := by
  cases distinct with
  | array items => exact items part inside
  | object _ values =>
      obtain ⟨member, listed, rfl⟩ := List.mem_map.mp inside
      exact values member listed
  | _ => simp [parts] at inside

theorem HasDistinctKeys.nodup_keys
    {members : Members}
    (distinct : HasDistinctKeys (Json.object members)) :
    (Members.keys members).Nodup := by
  cases distinct with
  | object keys _ => exact keys

theorem SameUpToKeyOrder.refl (document : Json) : SameUpToKeyOrder document document := by
  induction document using inductionOnParts with
  | step document inductionHypothesis =>
      cases document with
      | null => exact .null
      | bool value => exact .bool value
      | number literal => exact .number literal
      | string text => exact .string text
      | array items => exact .array (List.forall₂_same.mpr inductionHypothesis)
      | object members =>
          exact .object (.refl members) rfl (List.forall₂_same.mpr inductionHypothesis)

theorem exists_of_forall₂
    {α β : Type}
    {related : α → β → Prop}
    {items : List α}
    {items' : List β}
    (alike : List.Forall₂ related items items') :
    ∀ item ∈ items, ∃ item' ∈ items', related item item' := by
  induction alike with
  | nil => simp
  | cons relatedFirst _ inductionHypothesis =>
      refine List.forall_mem_cons.mpr ⟨⟨_, List.mem_cons_self, relatedFirst⟩, fun item listed => ?_⟩
      obtain ⟨item', listed', relatedItem⟩ := inductionHypothesis item listed
      exact ⟨item', List.mem_cons_of_mem _ listed', relatedItem⟩

/-- Every part of a document is, up to the order of keys, a part of any document that
differs only in that order. -/
theorem SameUpToKeyOrder.exists_part
    {document document' part : Json}
    (same : document.SameUpToKeyOrder document')
    (inside : part ∈ document.parts) :
    ∃ part' ∈ document'.parts, part.SameUpToKeyOrder part' := by
  cases same with
  | array alike => exact exists_of_forall₂ alike part inside
  | object reordered _ values =>
      exact exists_of_forall₂ values part ((reordered.map Prod.snd).mem_iff.mp inside)
  | _ => simp [parts] at inside

/-- Members have related values under the same keys exactly if their keys and their values,
each taken by themselves, say so. -/
theorem forall₂_members_iff
    {related : Json → Json → Prop}
    {members members' : Members} :
    List.Forall₂ (fun member member' => member.1 = member'.1 ∧ related member.2 member'.2)
        members members' ↔
      Members.keys members = Members.keys members' ∧
        List.Forall₂ related (members.map Prod.snd) (members'.map Prod.snd) := by
  induction members generalizing members' with
  | nil =>
      cases members' <;> simp [Members.keys]
  | cons member rest inductionHypothesis =>
      cases members' with
      | nil => simp [Members.keys]
      | cons member' rest' =>
          rw [List.forall₂_cons, inductionHypothesis]
          simp only [Members.keys, List.map_cons, List.cons.injEq, List.forall₂_cons]
          tauto

/-- Two members have the same key, and values that differ at most in the order of
keys. -/
def SameMember (member member' : String × Json) : Prop :=
  member.1 = member'.1 ∧ SameUpToKeyOrder member.2 member'.2

theorem forall₂_sameMember_iff
    {members members' : Members} :
    List.Forall₂ SameMember members members' ↔
      Members.keys members = Members.keys members' ∧
        List.Forall₂ SameUpToKeyOrder (members.map Prod.snd) (members'.map Prod.snd) :=
  forall₂_members_iff

/-- Objects are the same up to the order of keys if their members are, in whatever
order either of them lists these. -/
theorem SameUpToKeyOrder.of_members
    {members ordered alike members' : Members}
    (reordered : members.Perm ordered)
    (same : List.Forall₂ SameMember ordered alike)
    (permuted : alike.Perm members') :
    SameUpToKeyOrder (Json.object members) (Json.object members') := by
  have both : Relation.Comp (List.Forall₂ SameMember) List.Perm ordered members' :=
    ⟨alike, same, permuted⟩
  rw [List.forall₂_comp_perm_eq_perm_comp_forall₂] at both
  obtain ⟨middle, reorderedAgain, same⟩ := both
  obtain ⟨keys, values⟩ := forall₂_sameMember_iff.mp same
  exact .object (reordered.trans reorderedAgain) keys values

namespace Members

/-- In an object that has each key once, the members are what the keys look up. -/
theorem lookup_eq_some_iff
    {members : Members}
    (distinct : (keys members).Nodup)
    {key : String}
    {value : Json} :
    members.lookup key = some value ↔ (key, value) ∈ members := by
  induction members with
  | nil => simp
  | cons member rest inductionHypothesis =>
      obtain ⟨other, first⟩ := member
      obtain ⟨absent, distinct⟩ := List.nodup_cons.mp distinct
      by_cases same : key = other
      · subst same
        have noOther : (key, value) ∉ rest := by
          intro listed
          exact absent (List.mem_map.mpr ⟨_, listed, rfl⟩)
        simp [noOther, eq_comm]
      · have different : (key == other) = false := beq_eq_false_iff_ne.mpr same
        simp [List.lookup_cons, different, same, inductionHypothesis distinct]

theorem hasKey_iff
    {members : Members}
    {key : String} :
    hasKey members key = true ↔ key ∈ keys members := by
  simp [hasKey]

/-- What a key looks up is the value of a member. -/
theorem mem_of_lookup_eq_some
    {members : Members}
    {key : String}
    {value : Json}
    (found : members.lookup key = some value) :
    (key, value) ∈ members := by
  obtain ⟨before, behind, rfl, _⟩ := List.lookup_eq_some_iff.mp found
  exact List.mem_append_right before List.mem_cons_self

/-- Only keys are looked up. -/
theorem mem_keys_of_lookup_eq_some
    {members : Members}
    {key : String}
    {value : Json}
    (found : members.lookup key = some value) :
    key ∈ keys members :=
  List.mem_map_of_mem (mem_of_lookup_eq_some found)

/-- In an object that has each key once, the order of the members does not matter for
what a key looks up. -/
theorem lookup_eq_of_perm
    {members ordered : Members}
    (distinct : (keys members).Nodup)
    (reordered : members.Perm ordered)
    (key : String) :
    members.lookup key = ordered.lookup key := by
  have distinctOrdered : (keys ordered).Nodup := (reordered.map Prod.fst).nodup_iff.mp distinct
  apply Option.ext
  intro value
  rw [lookup_eq_some_iff distinct, lookup_eq_some_iff distinctOrdered, reordered.mem_iff]

theorem rel_lookup_of_forall₂_sameMember
    {members members' : Members}
    (same : List.Forall₂ SameMember members members')
    (key : String) :
    Option.Rel SameUpToKeyOrder (members.lookup key) (members'.lookup key) := by
  induction same with
  | nil => exact .none
  | @cons member member' _ _ sameMember _ inductionHypothesis =>
      obtain ⟨other, value⟩ := member
      obtain ⟨other', value'⟩ := member'
      obtain ⟨rfl, sameValue⟩ : other = other' ∧ _ := sameMember
      rw [List.lookup_cons, List.lookup_cons]
      split
      · exact .some sameValue
      · exact inductionHypothesis

end Members

namespace SameUpToKeyOrder

theorem keys_perm
    {members members' : Members}
    (same : SameUpToKeyOrder (Json.object members) (Json.object members')) :
    (Members.keys members).Perm (Members.keys members') := by
  cases same with
  | object reordered keys _ => exact keys ▸ reordered.map Prod.fst

/-- Under a key two objects have values that differ at most in the order of keys, or both
have none. -/
theorem rel_lookup
    {members members' : Members}
    (same : SameUpToKeyOrder (Json.object members) (Json.object members'))
    (distinct : (Members.keys members).Nodup)
    (key : String) :
    Option.Rel SameUpToKeyOrder (members.lookup key) (members'.lookup key) := by
  cases same with
  | object reordered keys values =>
      rw [Members.lookup_eq_of_perm distinct reordered]
      exact Members.rel_lookup_of_forall₂_sameMember (forall₂_sameMember_iff.mpr ⟨keys, values⟩) key

end SameUpToKeyOrder

/-- A document repeats no key, and another one differs from it at most in the order of
keys. -/
structure Reorders (document document' : Json) : Prop where
  distinct : document.HasDistinctKeys
  same : document.SameUpToKeyOrder document'

namespace Reorders

theorem items
    {items items' : List Json}
    (reorders : (Json.array items).Reorders (Json.array items')) :
    List.Forall₂ (fun item item' => item ∈ items ∧ item.Reorders item') items items' := by
  obtain ⟨distinct, same⟩ := reorders
  cases same with
  | array same =>
      apply ((List.forall₂_and_left _ _).mpr ⟨fun item => id, same⟩).imp
      rintro item item' ⟨inside, same⟩
      exact ⟨inside, distinct.part inside, same⟩

/-- Under a key two objects have values of which one reorders the other, or both have
none. -/
theorem rel_lookup
    {members members' : Members}
    (reorders : (Json.object members).Reorders (Json.object members'))
    (key : String) :
    Option.Rel (fun value value' => value ∈ (Json.object members).parts ∧ value.Reorders value')
      (members.lookup key) (members'.lookup key) := by
  have distinct := reorders.distinct.nodup_keys
  have found := reorders.same.rel_lookup distinct key
  generalize lookedUp : members.lookup key = value at found ⊢
  generalize members'.lookup key = value' at found ⊢
  cases found with
  | none => exact .none
  | @some value value' same =>
      have inside := mem_parts_object ((Members.lookup_eq_some_iff distinct).mp lookedUp)
      exact .some ⟨inside, reorders.distinct.part inside, same⟩

end Reorders
end Json
end Covenant
