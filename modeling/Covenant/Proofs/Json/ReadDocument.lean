import Covenant.Proofs.Json.CompactDocument
import Covenant.Proofs.Json.Height

/-!
# Documents that texts stand for

The document of a text is made from what is written in it, by replacing wrapped numbers
and keeping one value for every key.  Neither step makes anything higher, and the second
one leaves no key twice; so whatever a text stands for has distinct keys and nests no
more than a text may (`Json.parse?_eq_some`).
-/

namespace Covenant
namespace Json

namespace Members

theorem keys_set_of_mem
    {key : String}
    (value : Json)
    {members : Members}
    (present : key ∈ keys members) :
    keys (set key value members) = keys members := by
  induction members with
  | nil => simp [keys] at present
  | cons member rest inductionHypothesis =>
      obtain ⟨other, old⟩ := member
      rw [set]
      split
      · rename_i same
        simp [keys, same]
      · rename_i different
        have behind : key ∈ keys rest :=
          (List.mem_cons.mp present).resolve_left (Ne.symm different)
        exact congrArg (other :: ·) (inductionHypothesis behind)

theorem nodup_keys_set
    (key : String)
    (value : Json)
    {members : Members}
    (distinct : (keys members).Nodup) :
    (keys (set key value members)).Nodup := by
  by_cases present : key ∈ keys members
  · rwa [keys_set_of_mem value present]
  · have appended : keys (members ++ [(key, value)]) = keys members ++ [key] := List.map_append
    rw [set_of_not_mem value present, appended, List.nodup_append]
    refine ⟨distinct, by simp, ?_⟩
    intro other listed last isKey same
    exact present (List.mem_singleton.mp isKey ▸ same ▸ listed)

theorem mem_of_mem_set
    {key : String}
    {value : Json}
    {members : Members}
    {member : String × Json}
    (listed : member ∈ set key value members) :
    member = (key, value) ∨ member ∈ members := by
  induction members with
  | nil => exact .inl (List.mem_singleton.mp listed)
  | cons first rest inductionHypothesis =>
      obtain ⟨other, old⟩ := first
      rw [set] at listed
      split at listed
      · exact (List.mem_cons.mp listed).imp_right (List.mem_cons_of_mem _)
      · rcases List.mem_cons.mp listed with rfl | listed
        · exact .inr List.mem_cons_self
        · exact (inductionHypothesis listed).imp_right (List.mem_cons_of_mem _)

/-- Members that are set one after the other keep the keys distinct, and every member was
set or there before. -/
theorem foldl_set
    (written : Members)
    {before : Members}
    (distinct : (keys before).Nodup) :
    (keys (written.foldl (fun members (key, value) => set key value members) before)).Nodup ∧
      ∀ member ∈ written.foldl (fun members (key, value) => set key value members) before,
        member ∈ written ∨ member ∈ before := by
  induction written generalizing before with
  | nil => exact ⟨distinct, fun member listed => .inr listed⟩
  | cons first written inductionHypothesis =>
      obtain ⟨key, value⟩ := first
      obtain ⟨distinct, within⟩ := inductionHypothesis (nodup_keys_set key value distinct)
      refine ⟨distinct, fun member listed => ?_⟩
      rcases within member listed with listed | listed
      · exact .inl (List.mem_cons_of_mem _ listed)
      · rcases mem_of_mem_set listed with rfl | listed
        · exact .inl List.mem_cons_self
        · exact .inr listed

theorem nodup_keys_ofWritten (written : Members) : (keys (ofWritten written)).Nodup :=
  (@foldl_set written [] List.nodup_nil).1

theorem mem_of_mem_ofWritten
    {written : Members}
    {member : String × Json}
    (listed : member ∈ ofWritten written) :
    member ∈ written :=
  ((@foldl_set written [] List.nodup_nil).2 member listed).resolve_right List.not_mem_nil

end Members

namespace Written

/-- What stands directly inside a value: the items of an array, or the values of an
object. -/
def parts : Written → List Written
  | array items => items
  | object members => members.map Prod.snd
  | _ => []

/-- A property holds of every value if it passes from all parts of a value to the
value. -/
@[elab_as_elim]
theorem inductionOnParts
    {motive : Written → Prop}
    (step : ∀ written, (∀ part ∈ written.parts, motive part) → motive written)
    (written : Written) :
    motive written := by
  refine @Written.rec motive
    (fun items => ∀ item ∈ items, motive item)
    (fun members => ∀ member ∈ members, motive member.2)
    (fun member => motive member.2)
    ?_ ?_ ?_ ?_ ?_ ?_ ?_ ?_ ?_ ?_ ?_ written
  · exact step _ (by simp [parts])
  · exact fun _ => step _ (by simp [parts])
  · exact fun _ => step _ (by simp [parts])
  · exact fun _ => step _ (by simp [parts])
  · exact fun items holds => step _ holds
  · exact fun members holds => step _ (List.forall_mem_map.mpr holds)
  · simp
  · exact fun _ _ first others => List.forall_mem_cons.mpr ⟨first, others⟩
  · simp
  · exact fun _ _ first others => List.forall_mem_cons.mpr ⟨first, others⟩
  · exact fun _ _ holds => holds

/-! ## Heights of what is written -/

theorem heightOfItems_le_iff
    {items : List Written}
    {bound : Nat} :
    heightOfItems items ≤ bound ↔ ∀ item ∈ items, item.height ≤ bound := by
  induction items with
  | nil => simp [heightOfItems]
  | cons item rest inductionHypothesis =>
      rw [heightOfItems, Nat.max_le, inductionHypothesis, List.forall_mem_cons]

theorem heightOfMembers_eq (members : Members) :
    heightOfMembers members = heightOfItems (members.map Prod.snd) := by
  induction members with
  | nil => rfl
  | cons member rest inductionHypothesis =>
      rw [heightOfMembers, inductionHypothesis, List.map_cons, heightOfItems]

/-- A value is at most one higher than its parts. -/
theorem height_le_succ
    {written : Written}
    {bound : Nat}
    (lower : ∀ part ∈ written.parts, part.height ≤ bound) :
    written.height ≤ bound + 1 := by
  cases written with
  | array items => exact Nat.succ_le_succ (heightOfItems_le_iff.mpr lower)
  | object members =>
      rw [height, heightOfMembers_eq]
      exact Nat.succ_le_succ (heightOfItems_le_iff.mpr lower)
  | _ => exact Nat.zero_le _

theorem height_lt_of_mem_parts
    {written part : Written}
    (inside : part ∈ written.parts) :
    part.height < written.height := by
  cases written with
  | array items => exact Nat.lt_succ_of_le (heightOfItems_le_iff.mp (Nat.le_refl _) part inside)
  | object members =>
      rw [height, heightOfMembers_eq]
      exact Nat.lt_succ_of_le (heightOfItems_le_iff.mp (Nat.le_refl _) part inside)
  | _ => simp [parts] at inside

theorem mapM_cons_eq_some_iff
    {α β : Type}
    {change : α → Option β}
    {item : α}
    {rest : List α}
    {changed : List β} :
    (item :: rest).mapM change = some changed ↔
      ∃ item' rest', change item = some item' ∧ rest.mapM change = some rest' ∧
        changed = item' :: rest' := by
  simp only [List.mapM_cons, Option.bind_eq_bind, Option.bind_eq_some_iff, pure,
    Option.some.injEq]
  constructor
  · rintro ⟨item', found, rest', foundRest, rfl⟩
    exact ⟨item', rest', found, foundRest, rfl⟩
  · rintro ⟨item', rest', found, foundRest, rfl⟩
    exact ⟨item', found, rest', foundRest, rfl⟩

/-- What a list is changed into comes from its items. -/
theorem exists_of_mapM_eq_some
    {α β : Type}
    {change : α → Option β}
    {items : List α}
    {changed : List β}
    (found : items.mapM change = some changed) :
    ∀ item' ∈ changed, ∃ item ∈ items, change item = some item' := by
  induction items generalizing changed with
  | nil =>
      obtain rfl := Option.some.inj found
      simp
  | cons item rest inductionHypothesis =>
      obtain ⟨item', rest', foundItem, foundRest, rfl⟩ := mapM_cons_eq_some_iff.mp found
      refine List.forall_mem_cons.mpr ⟨⟨item, List.mem_cons_self, foundItem⟩, ?_⟩
      intro later listed
      obtain ⟨source, isItem, found⟩ := inductionHypothesis foundRest later listed
      exact ⟨source, List.mem_cons_of_mem item isItem, found⟩

/-! ## Wrapped numbers -/

theorem unwrapItems?_eq_mapM (items : List Written) : unwrapItems? items = items.mapM unwrap? := by
  induction items with
  | nil => rfl
  | cons item rest inductionHypothesis =>
      rw [unwrapItems?, List.mapM_cons, inductionHypothesis]

theorem unwrapMembers?_eq_mapM (members : Members) :
    unwrapMembers? members =
      members.mapM fun member => (unwrap? member.2).map (member.1, ·) := by
  induction members with
  | nil => rfl
  | cons member rest inductionHypothesis =>
      rw [unwrapMembers?, List.mapM_cons, inductionHypothesis]
      cases unwrap? member.2 <;> rfl

/-- Every part of a value without wrapped numbers comes from a part of what is written. -/
theorem exists_part_of_unwrap?
    {written unwrapped : Written}
    (found : unwrap? written = some unwrapped) :
    ∀ part' ∈ unwrapped.parts, ∃ part ∈ written.parts, unwrap? part = some part' := by
  cases written with
  | array items =>
      obtain ⟨items', foundItems, rfl⟩ := Option.map_eq_some_iff.mp found
      rw [unwrapItems?_eq_mapM] at foundItems
      exact exists_of_mapM_eq_some foundItems
  | object members =>
      rw [unwrap?] at found
      split at found
      · rw [wrappedNumber?.eq_def] at found
        split at found
        · obtain ⟨literal, _, rfl⟩ := Option.map_eq_some_iff.mp found
          simp [parts]
        · simp at found
      · obtain ⟨members', foundMembers, rfl⟩ := Option.map_eq_some_iff.mp found
        rw [unwrapMembers?_eq_mapM] at foundMembers
        refine List.forall_mem_map.mpr fun member' listed => ?_
        obtain ⟨member, isMember, changed⟩ := exists_of_mapM_eq_some foundMembers member' listed
        obtain ⟨value, unwraps, rfl⟩ := Option.map_eq_some_iff.mp changed
        exact ⟨member.2, List.mem_map_of_mem isMember, unwraps⟩
  | _ =>
      obtain rfl := Option.some.inj found
      simp [parts]

/-- Replacing wrapped numbers makes nothing higher. -/
theorem height_le_of_unwrap?
    {written unwrapped : Written}
    (found : unwrap? written = some unwrapped) :
    unwrapped.height ≤ written.height := by
  induction written using inductionOnParts generalizing unwrapped with
  | step written inductionHypothesis =>
      have lower : ∀ part' ∈ unwrapped.parts, part'.height < written.height := by
        intro part' inside
        obtain ⟨part, isPart, found⟩ := exists_part_of_unwrap? found part' inside
        exact Nat.lt_of_le_of_lt (inductionHypothesis part isPart found)
          (height_lt_of_mem_parts isPart)
      cases written with
      | array items => exact height_le_succ fun part inside => Nat.le_of_lt_succ (lower part inside)
      | object members =>
          exact height_le_succ fun part inside => Nat.le_of_lt_succ (lower part inside)
      | _ =>
          obtain rfl := Option.some.inj found
          exact Nat.le_refl _

/-! ## One value for every key -/

theorem plainItems?_eq_mapM (items : List Written) : plainItems? items = items.mapM plain? := by
  induction items with
  | nil => rfl
  | cons item rest inductionHypothesis =>
      rw [plainItems?, List.mapM_cons, inductionHypothesis]

theorem plainMembers?_eq_mapM (members : Members) :
    plainMembers? members =
      members.mapM fun member => member.1.bind fun key => (plain? member.2).map (key, ·) := by
  induction members with
  | nil => rfl
  | cons member rest inductionHypothesis =>
      obtain ⟨_ | key, value⟩ := member
      · rfl
      · rw [plainMembers?, List.mapM_cons, inductionHypothesis]
        cases plain? value <;> rfl

/-- Every part of a document comes from a part of what is written. -/
theorem exists_part_of_plain?
    {written : Written}
    {document : Json}
    (found : plain? written = some document) :
    ∀ part' ∈ document.parts, ∃ part ∈ written.parts, plain? part = some part' := by
  cases written with
  | array items =>
      obtain ⟨documents, foundItems, rfl⟩ := Option.map_eq_some_iff.mp found
      rw [plainItems?_eq_mapM] at foundItems
      exact exists_of_mapM_eq_some foundItems
  | object members =>
      obtain ⟨listed, foundMembers, rfl⟩ := Option.map_eq_some_iff.mp found
      rw [plainMembers?_eq_mapM] at foundMembers
      refine List.forall_mem_map.mpr fun member' kept => ?_
      obtain ⟨member, isMember, changed⟩ :=
        exists_of_mapM_eq_some foundMembers member' (Members.mem_of_mem_ofWritten kept)
      obtain ⟨key, _, keyed⟩ := Option.bind_eq_some_iff.mp changed
      obtain ⟨value, plain, rfl⟩ := Option.map_eq_some_iff.mp keyed
      exact ⟨member.2, List.mem_map_of_mem isMember, plain⟩
  | string text? =>
      obtain ⟨text, _, rfl⟩ := Option.map_eq_some_iff.mp found
      simp [Json.parts]
  | _ =>
      obtain rfl := Option.some.inj found
      simp [Json.parts]

/-- Keeping one value for every key makes nothing higher. -/
theorem height_le_of_plain?
    {written : Written}
    {document : Json}
    (found : plain? written = some document) :
    document.height ≤ written.height := by
  induction written using inductionOnParts generalizing document with
  | step written inductionHypothesis =>
      have lower : ∀ part' ∈ document.parts, part'.height < written.height := by
        intro part' inside
        obtain ⟨part, isPart, found⟩ := exists_part_of_plain? found part' inside
        exact Nat.lt_of_le_of_lt (inductionHypothesis part isPart found)
          (height_lt_of_mem_parts isPart)
      cases written with
      | array items =>
          exact Json.height_le_succ fun part inside => Nat.le_of_lt_succ (lower part inside)
      | object members =>
          exact Json.height_le_succ fun part inside => Nat.le_of_lt_succ (lower part inside)
      | string text? =>
          obtain ⟨text, _, rfl⟩ := Option.map_eq_some_iff.mp found
          exact Nat.zero_le _
      | _ =>
          obtain rfl := Option.some.inj found
          exact Nat.zero_le _

/-- Keeping one value for every key leaves no key twice. -/
theorem hasDistinctKeys_of_plain?
    {written : Written}
    {document : Json}
    (found : plain? written = some document) :
    document.HasDistinctKeys := by
  induction written using inductionOnParts generalizing document with
  | step written inductionHypothesis =>
      have distinct : ∀ part' ∈ document.parts, part'.HasDistinctKeys := by
        intro part' inside
        obtain ⟨part, isPart, found⟩ := exists_part_of_plain? found part' inside
        exact inductionHypothesis part isPart found
      cases written with
      | array items =>
          obtain ⟨documents, _, rfl⟩ := Option.map_eq_some_iff.mp found
          exact .array distinct
      | object members =>
          obtain ⟨listed, _, rfl⟩ := Option.map_eq_some_iff.mp found
          exact .object (Members.nodup_keys_ofWritten listed) (List.forall_mem_map.mp distinct)
      | null =>
          obtain rfl := Option.some.inj found
          exact .null
      | bool value =>
          obtain rfl := Option.some.inj found
          exact .bool value
      | number literal =>
          obtain rfl := Option.some.inj found
          exact .number literal
      | string text? =>
          obtain ⟨text, _, rfl⟩ := Option.map_eq_some_iff.mp found
          exact .string text

end Written

/-- A document that a text stands for repeats no key and is not too high. -/
theorem parse?_eq_some
    {text : String}
    {document : Json}
    (parsed : parse? text = some document) :
    document.HasDistinctKeys ∧ document.height ≤ maxHeight := by
  obtain ⟨written, _, found⟩ := Option.bind_eq_some_iff.mp parsed
  rw [Written.document?] at found
  split at found
  · rename_i low
    obtain ⟨unwrapped, unwraps, plain⟩ := Option.bind_eq_some_iff.mp found
    refine ⟨Written.hasDistinctKeys_of_plain? plain, ?_⟩
    calc document.height
        ≤ unwrapped.height := Written.height_le_of_plain? plain
      _ ≤ written.height := Written.height_le_of_unwrap? unwraps
      _ ≤ maxHeight := low
  · simp at found

end Json
end Covenant
