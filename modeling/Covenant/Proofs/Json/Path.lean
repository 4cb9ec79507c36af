import Covenant.Proofs.Json.ReadDocument

/-!
# Paths into documents

A path leads from a document to a part of it, from each array or object to what stands
directly inside.  `Json.part?` follows a path, and `Json.put` puts another document where
the path leads; everything beside the path stays as it is.
-/

namespace Covenant
namespace Json

/-- A step from a document to what stands directly inside. -/
inductive Step where
  /-- To what an object has under a key. -/
  | key (key : String)
  /-- To an item of an array, counted from zero. -/
  | index (index : Nat)
deriving DecidableEq

/-- The steps from a document to a part of it. -/
abbrev Path := List Step

/-- What a document has at a path. -/
def part? : Json → Path → Option Json
  | document, [] => some document
  | object members, .key key :: path => (members.lookup key).bind (part? · path)
  | array items, .index index :: path => items[index]?.bind (part? · path)
  | _, _ :: _ => none

/-- A document with another one at a path.  Where the path leads nowhere, nothing
changes. -/
def put : Json → Path → Json → Json
  | _, [], other => other
  | object members, .key key :: path, other =>
    match members.lookup key with
    | some part => object (Members.set key (part.put path other) members)
    | none => object members
  | array items, .index index :: path, other =>
    match items[index]? with
    | some item => array (items.set index (item.put path other))
    | none => array items
  | document, _ :: _, _ => document

@[simp] theorem part?_nil (document : Json) : document.part? [] = some document := by
  cases document <;> rfl

@[simp] theorem put_nil (document other : Json) : document.put [] other = other := by
  cases document <;> rfl

theorem part?_key
    {members : Members}
    {key : String}
    {part : Json}
    (found : members.lookup key = some part)
    (path : Path) :
    (object members).part? (.key key :: path) = part.part? path := by
  rw [part?, found, Option.bind_some]

theorem part?_index
    {items : List Json}
    {index : Nat}
    {item : Json}
    (found : items[index]? = some item)
    (path : Path) :
    (array items).part? (.index index :: path) = item.part? path := by
  rw [part?, found, Option.bind_some]

theorem put_key
    {members : Members}
    {key : String}
    {part : Json}
    (found : members.lookup key = some part)
    (path : Path)
    (other : Json) :
    (object members).put (.key key :: path) other =
      object (Members.set key (part.put path other) members) := by
  rw [put, found]

theorem put_index
    {items : List Json}
    {index : Nat}
    {item : Json}
    (found : items[index]? = some item)
    (path : Path)
    (other : Json) :
    (array items).put (.index index :: path) other =
      array (items.set index (item.put path other)) := by
  rw [put, found]

/-- An item of a list has some items before it and some behind it, which stay if the item
is replaced. -/
theorem exists_eq_append_cons
    {α : Type}
    {items : List α}
    {index : Nat}
    {item : α}
    (found : items[index]? = some item) :
    ∃ before behind, items = before ++ item :: behind ∧ before.length = index ∧
      ∀ other, items.set index other = before ++ other :: behind := by
  induction items generalizing index with
  | nil => simp at found
  | cons first rest inductionHypothesis =>
      cases index with
      | zero =>
          obtain rfl : first = item := by simpa using found
          exact ⟨[], rest, rfl, rfl, fun other => rfl⟩
      | succ index =>
          obtain ⟨before, behind, same, length, replaced⟩ :=
            inductionHypothesis (by simpa using found)
          refine ⟨first :: before, behind, congrArg (first :: ·) same,
            congrArg (· + 1) length, fun other => ?_⟩
          rw [List.set_cons_succ, replaced, List.cons_append]

/-- A path that goes on behind another one. -/
theorem part?_append
    (document : Json)
    (path further : Path) :
    document.part? (path ++ further) = (document.part? path).bind (part? · further) := by
  induction path generalizing document with
  | nil => simp
  | cons step path inductionHypothesis =>
      cases document <;> cases step <;>
        simp [part?, Option.bind_assoc, inductionHypothesis]

theorem put_append
    {document part : Json}
    {path : Path}
    (found : document.part? path = some part)
    (further : Path)
    (other : Json) :
    document.put (path ++ further) other = document.put path (part.put further other) := by
  induction path generalizing document with
  | nil =>
      obtain rfl : document = part := by simpa using found
      rw [List.nil_append, put_nil]
  | cons step path inductionHypothesis =>
      cases document <;> cases step <;> simp only [part?, Option.bind_eq_some_iff] at found
      case array.index items index =>
          obtain ⟨item, found, behind⟩ := found
          rw [List.cons_append, put_index found, put_index found, inductionHypothesis behind]
      case object.key members key =>
          obtain ⟨value, found, behind⟩ := found
          rw [List.cons_append, put_key found, put_key found, inductionHypothesis behind]
      all_goals cases found

namespace Members

theorem lookup_set_self
    (key : String)
    (value : Json)
    (members : Members) :
    (set key value members).lookup key = some value := by
  induction members with
  | nil => simp [set]
  | cons member rest inductionHypothesis =>
      obtain ⟨other, old⟩ := member
      rw [set]
      split
      · simp
      · rename_i different
        have apart : (key == other) = false := beq_eq_false_iff_ne.mpr (Ne.symm different)
        rw [List.lookup_cons, apart, inductionHypothesis]

theorem lookup_set_of_ne
    {key other : String}
    (different : other ≠ key)
    (value : Json)
    (members : Members) :
    (set key value members).lookup other = members.lookup other := by
  have apart : (other == key) = false := beq_eq_false_iff_ne.mpr different
  induction members with
  | nil => simp [set, List.lookup_cons, apart]
  | cons member rest inductionHypothesis =>
      obtain ⟨first, old⟩ := member
      rw [set]
      split
      · rename_i same
        rw [List.lookup_cons, List.lookup_cons, apart, same, apart]
      · rw [List.lookup_cons, List.lookup_cons, inductionHypothesis]

end Members
end Json
end Covenant
