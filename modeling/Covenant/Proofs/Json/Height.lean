import Covenant.Proofs.Json.KeyOrder

/-!
# Heights of documents

The height of an array or object is one more than that of its highest part.  The order
of the items or members does not matter for it, so documents that differ in nothing but
the order of keys are equally high.
-/

namespace Covenant
namespace Json

theorem heightOfMembers_eq (members : Members) :
    heightOfMembers members = heightOfItems (members.map Prod.snd) := by
  induction members with
  | nil => rfl
  | cons member rest inductionHypothesis =>
      rw [heightOfMembers, inductionHypothesis, List.map_cons, heightOfItems]

theorem heightOfItems_le_iff
    {items : List Json}
    {bound : Nat} :
    heightOfItems items ≤ bound ↔ ∀ item ∈ items, item.height ≤ bound := by
  induction items with
  | nil => simp [heightOfItems]
  | cons item rest inductionHypothesis =>
      rw [heightOfItems, Nat.max_le, inductionHypothesis, List.forall_mem_cons]

/-- A document is at most one higher than its parts. -/
theorem height_le_succ
    {document : Json}
    {bound : Nat}
    (lower : ∀ part ∈ document.parts, part.height ≤ bound) :
    document.height ≤ bound + 1 := by
  cases document with
  | array items => exact Nat.succ_le_succ (heightOfItems_le_iff.mpr lower)
  | object members =>
      rw [height, heightOfMembers_eq]
      exact Nat.succ_le_succ (heightOfItems_le_iff.mpr lower)
  | _ => exact Nat.zero_le _

theorem heightOfItems_le_of_subset
    {items items' : List Json}
    (within : ∀ item ∈ items, item ∈ items') :
    heightOfItems items ≤ heightOfItems items' := by
  rw [heightOfItems_le_iff]
  intro item listed
  exact heightOfItems_le_iff.mp (Nat.le_refl _) item (within item listed)

theorem heightOfItems_eq_of_perm
    {items items' : List Json}
    (reordered : items.Perm items') :
    heightOfItems items = heightOfItems items' :=
  Nat.le_antisymm (heightOfItems_le_of_subset fun _ => reordered.mem_iff.mp)
    (heightOfItems_le_of_subset fun _ => reordered.mem_iff.mpr)

theorem heightOfItems_eq_of_forall₂
    {items items' : List Json}
    (same : List.Forall₂ SameUpToKeyOrder items items')
    (equallyHigh : ∀ item ∈ items, ∀ item', item.SameUpToKeyOrder item' →
      item.height = item'.height) :
    heightOfItems items = heightOfItems items' := by
  induction same with
  | nil => rfl
  | cons same _ inductionHypothesis =>
      obtain ⟨first, others⟩ := List.forall_mem_cons.mp equallyHigh
      rw [heightOfItems, heightOfItems, first _ same, inductionHypothesis others]

/-- The order of keys does not matter for the height of a document. -/
theorem SameUpToKeyOrder.height_eq
    {document document' : Json}
    (same : document.SameUpToKeyOrder document') :
    document.height = document'.height := by
  induction document using inductionOnParts generalizing document' with
  | step document inductionHypothesis =>
      cases same with
      | array same =>
          rw [height, height, heightOfItems_eq_of_forall₂ same]
          intro item inside item' sameItem
          exact inductionHypothesis item inside sameItem
      | @object members ordered members' reordered _ same =>
          have values := reordered.map Prod.snd
          have equallyHigh : heightOfItems (ordered.map Prod.snd) =
              heightOfItems (members'.map Prod.snd) := by
            apply heightOfItems_eq_of_forall₂ same
            intro value inside value' sameValue
            exact inductionHypothesis value (values.mem_iff.mpr inside) sameValue
          rw [height, height, heightOfMembers_eq, heightOfMembers_eq,
            heightOfItems_eq_of_perm values, equallyHigh]
      | _ => rfl

end Json
end Covenant
