import Covenant.Proofs.Wire.Objects
import Mathlib.Data.List.Find

/-!
# Exact keys

An object in a document that is read has exactly the keys of its form.  With a further key
it is refused for an extra key, and without one of its keys for that key; and as the forms
of a family are told apart by their tags, a further tag may have it taken for another form,
while without a tag it has none (`Canonical.Kind.exists_refusesOtherKeys`).
-/

namespace Covenant

namespace Json.Members

variable {members before behind : Members} {key other : String}

/-- An object without a key. -/
def without (key : String) (members : Members) : Members :=
  members.filter fun member => member.1 != key

theorem mem_keys_without :
    other ∈ keys (without key members) ↔ other ∈ keys members ∧ other ≠ key := by
  simp only [keys, without, List.mem_map, List.mem_filter, bne_iff_ne]
  constructor
  · rintro ⟨member, ⟨listed, different⟩, rfl⟩
    exact ⟨⟨member, listed, rfl⟩, different⟩
  · rintro ⟨⟨member, listed, rfl⟩, different⟩
    exact ⟨member, ⟨listed, different⟩, rfl⟩

theorem lookup_without_of_ne (different : other ≠ key) (members : Members) :
    (without key members).lookup other = members.lookup other := by
  induction members with
  | nil => rfl
  | cons member rest inductionHypothesis =>
      obtain ⟨first, value⟩ := member
      by_cases removed : first = key
      · have apart : (other == first) = false := beq_eq_false_iff_ne.mpr (removed ▸ different)
        rw [without, List.filter_cons_of_neg (by simpa using removed), ← without,
          inductionHypothesis, List.lookup_cons, apart]
      · rw [without, List.filter_cons_of_pos (by simpa using removed), ← without,
          List.lookup_cons, List.lookup_cons, inductionHypothesis]

theorem lookup_without_self (key : String) (members : Members) :
    (without key members).lookup key = none := by
  cases found : (without key members).lookup key with
  | none => rfl
  | some value =>
      exact absurd rfl (mem_keys_without.mp (mem_keys_of_lookup_eq_some found)).2

theorem keys_append_cons (before behind : Members) (key : String) (value : Json) :
    keys (before ++ (key, value) :: behind) = keys before ++ key :: keys behind := by
  simp [keys]

/-- If an object has no extra key, a further one is the first that is extra. -/
theorem extraKey?_insert
    {allowed : List String}
    (within : ∀ other ∈ keys (before ++ behind), other ∈ allowed)
    (isNew : key ∉ allowed)
    (value : Json) :
    extraKey? allowed (before ++ (key, value) :: behind) = some key := by
  rw [extraKey?, keys_append_cons, List.find?_eq_some_iff_append]
  refine ⟨by simpa using isNew, keys before, keys behind, rfl, fun other listed => ?_⟩
  have allowedOther : other ∈ allowed := by
    refine within other ?_
    rw [keys, List.map_append]
    exact List.mem_append_left _ listed
  simpa using allowedOther

end Json.Members

namespace Wire
namespace Family

/-- The keys by which the forms of a family are told apart. -/
def tags (family : Family) : List String :=
  family.forms.flatMap Form.tags

/-- The name of the form of a node. -/
def formName : (family : Family) → family.Node → String
  | contract, node => Contract.kind node
  | case, _ => "Case"
  | action, node => Action.kind node
  | input, node => Input.kind node
  | value, node => Value.kind node
  | observation, node => Observation.kind node
  | party, node => Party.kind node
  | payee, node => Payee.kind node
  | asset, _ => "Token"
  | choiceId, _ => "ChoiceId"
  | bound, _ => "Bound"

theorem formName_build
    {family : Family}
    {form : Form family.Node}
    (listed : form ∈ family.forms)
    (arguments : Arguments form.fields) :
    family.formName (form.build.apply arguments) = form.name := by
  cases family <;>
    simp only [forms, contractForms, caseForms, actionForms, inputForms, valueForms,
      observationForms, partyForms, payeeForms, assetForms, choiceIdForms, boundForms,
      List.mem_cons, List.not_mem_nil, or_false] at listed
  all_goals
    repeat' obtain rfl | listed := listed
    all_goals rfl

/-- Which form an object has depends only on which tags it has. -/
theorem form?_eq_of_hasKey
    {family : Family}
    {members members' : Json.Members}
    (sameTags : ∀ tag ∈ family.tags, members.hasKey tag = members'.hasKey tag) :
    family.form? members = family.form? members' := by
  refine List.find?_congr fun form listed => ?_
  rw [Form.admits, Form.admits, Bool.eq_iff_iff, List.all_eq_true, List.all_eq_true]
  refine forall₂_congr fun tag isTag => ?_
  rw [sameTags tag (List.mem_flatMap.mpr ⟨form, listed, isTag⟩)]

/-- A form has a key that is none of any form that is tried before it. -/
theorem exists_key_not_mem_of_earlier (family : Family) :
    family.forms.Pairwise fun earlier later => ∃ key ∈ later.keys, key ∉ earlier.keys := by
  cases family <;> decide

/-- Every form has a tag that a form without one of its own tags lacks. -/
theorem exists_tag_of_removed (family : Family) :
    ∀ form ∈ family.forms, ∀ key ∈ form.keys, key ∈ family.tags →
      ∀ other ∈ family.forms, ∃ tag ∈ other.tags, tag = key ∨ tag ∉ form.keys := by
  cases family <;> decide

/-- An object of a form, without extra and without missing keys, whose fields are read. -/
structure Exact (family : Family) (form : Form family.Node) (members : Json.Members) : Prop where
  known : family.form? members = some form
  mem_keys_iff : ∀ key, key ∈ Json.Members.keys members ↔ key ∈ form.keys
  fields : ∃ arguments, Arguments.Each
    (fun field argument => Content.decodeField form.name field members = .ok argument)
    form.fields arguments

theorem exists_exact_of_decode
    {family : Family}
    {members : Json.Members}
    {node : family.Node}
    (decoded : family.decode (.object members) = .ok node) :
    ∃ form, family.Exact form members ∧ family.formName node = form.name := by
  obtain ⟨form, known, within, arguments, read, rfl⟩ := decode_object_eq_ok_iff.mp decoded
  have listed := List.mem_of_find?_eq_some known
  refine ⟨form, ⟨known, fun key => ⟨within key, fun isKey => ?_⟩, arguments, ?_⟩,
    formName_build listed arguments⟩
  · obtain ⟨field, isField, rfl⟩ := List.mem_map.mp isKey
    obtain ⟨_, ⟨_, lookedUp, _⟩, _⟩ := read.exists_set_eq isField
    exact Json.Members.mem_keys_of_lookup_eq_some lookedUp
  · exact Arguments.each_imp (fun _ _ => Content.decodeField_eq_ok_iff.mpr) read

theorem decode_object_of_unknown
    {family : Family}
    {members : Json.Members}
    (unknown : family.form? members = none) :
    family.decode (.object members) = .error (.unknown family.label (.object members)) := by
  simp only [decode, Content.decode, unknown]

theorem decode_object_of_extraKey?
    {family : Family}
    {members : Json.Members}
    {form : Form family.Node}
    (known : family.form? members = some form)
    {key : String}
    (extra : Json.Members.extraKey? form.keys members = some key) :
    family.decode (.object members) = .error (.unexpectedField form.name key) := by
  simp only [decode, Content.decode, known, extra]

namespace Exact

variable {family : Family} {form : Form family.Node}

section Insert

variable {before behind : Json.Members} {key : String}
variable (exact : family.Exact form (before ++ behind))
variable (isNew : key ∉ Json.Members.keys (before ++ behind))
include exact isNew

/-- A further key that is no tag is extra. -/
theorem decode_insert
    (noTag : key ∉ family.tags)
    (value : Json) :
    family.decode (.object (before ++ (key, value) :: behind)) =
      .error (.unexpectedField form.name key) := by
  have known : family.form? (before ++ (key, value) :: behind) = some form := by
    rw [← exact.known]
    refine form?_eq_of_hasKey fun tag isTag => ?_
    have different : tag ≠ key := fun same => noTag (same ▸ isTag)
    simp [Json.Members.hasKey, Json.Members.keys, different]
  have within : ∀ other ∈ Json.Members.keys (before ++ behind), other ∈ form.keys :=
    fun other => (exact.mem_keys_iff other).mp
  have noKey : key ∉ form.keys := fun isKey => isNew ((exact.mem_keys_iff key).mpr isKey)
  exact decode_object_of_extraKey? known (Json.Members.extraKey?_insert within noKey value)

/-- With a further key that is a tag an object may be taken for another form, but then one
of its own keys is extra. -/
theorem exists_decode_insert (value : Json) :
    ∃ variant field, family.decode (.object (before ++ (key, value) :: behind)) =
      .error (.unexpectedField variant field) := by
  have hasKeys : ∀ other ∈ key :: form.keys,
      other ∈ Json.Members.keys (before ++ (key, value) :: behind) := by
    refine List.forall_mem_cons.mpr ⟨by simp [Json.Members.keys], fun other isKey => ?_⟩
    have present := (exact.mem_keys_iff other).mpr isKey
    simp only [Json.Members.keys, List.map_append, List.mem_append, List.map_cons,
      List.mem_cons] at present ⊢
    exact present.imp_right .inr
  have listed := List.mem_of_find?_eq_some exact.known
  have admits : form.admits (before ++ (key, value) :: behind) = true := by
    refine List.all_eq_true.mpr fun tag isTag => Json.Members.hasKey_iff.mpr (hasKeys tag ?_)
    exact List.mem_cons_of_mem _ (tags_subset_keys family form listed tag isTag)
  have hasForm : (family.form? (before ++ (key, value) :: behind)).isSome = true :=
    List.find?_isSome.mpr ⟨form, listed, admits⟩
  obtain ⟨other, known⟩ := Option.isSome_iff_exists.mp hasForm
  have someExtra : ∃ field ∈ key :: form.keys, field ∉ other.keys := by
    obtain ⟨_, tried, later, split, notAdmitted⟩ := List.find?_eq_some_iff_append.mp known
    have apart := exists_key_not_mem_of_earlier family
    rw [split] at listed apart
    rcases List.mem_append.mp listed with isEarlier | isLater
    · exact absurd admits (by simpa using notAdmitted form isEarlier)
    · rcases List.mem_cons.mp isLater with rfl | isLater
      · exact ⟨key, List.mem_cons_self, fun isKey => isNew ((exact.mem_keys_iff key).mpr isKey)⟩
      · obtain ⟨field, isKey, lacks⟩ :=
          List.rel_of_pairwise_cons (List.pairwise_append.mp apart).2.1 isLater
        exact ⟨field, List.mem_cons_of_mem _ isKey, lacks⟩
  obtain ⟨field, isKey, lacks⟩ := someExtra
  cases extra : Json.Members.extraKey? other.keys (before ++ (key, value) :: behind) with
  | none => exact absurd (Json.Members.extraKey?_eq_none_iff.mp extra _ (hasKeys field isKey)) lacks
  | some field => exact ⟨_, field, decode_object_of_extraKey? known extra⟩

end Insert

section Without

variable {members : Json.Members} {key : String}
variable (exact : family.Exact form members)
variable (isKey : key ∈ Json.Members.keys members)
include exact isKey

/-- An object without a key that is no tag is refused for that key. -/
theorem decode_without (noTag : key ∉ family.tags) :
    family.decode (.object (Json.Members.without key members)) =
      .error (.missingField form.name key) := by
  have known : family.form? (Json.Members.without key members) = some form := by
    rw [← exact.known]
    refine form?_eq_of_hasKey fun tag isTag => ?_
    have different : tag ≠ key := fun same => noTag (same ▸ isTag)
    rw [Bool.eq_iff_iff, Json.Members.hasKey_iff, Json.Members.hasKey_iff,
      Json.Members.mem_keys_without, and_iff_left different]
  have within : ∀ other ∈ Json.Members.keys (Json.Members.without key members),
      other ∈ form.keys :=
    fun other listed => (exact.mem_keys_iff other).mp (Json.Members.mem_keys_without.mp listed).1
  have listed := List.mem_of_find?_eq_some exact.known
  obtain ⟨field, isField, rfl⟩ := List.mem_map.mp ((exact.mem_keys_iff key).mp isKey)
  obtain ⟨arguments, read⟩ := exact.fields
  have readKey : Content.decodeField form.name field (Json.Members.without field.key members) =
      .error (.missingField form.name field.key) := by
    rw [Content.decodeField_eq, Json.Members.lookup_without_self]
  have readOthers : Arguments.Each
      (fun other argument => other ≠ field →
        Content.decodeField form.name other (Json.Members.without field.key members) =
          .ok argument)
      form.fields arguments := by
    refine read.imp_of_mem fun other isOther argument readOther different => ?_
    have otherKey : other.key ≠ field.key := fun same =>
      different (eq_of_key_eq listed isOther isField same)
    rw [Content.decodeField_eq] at readOther ⊢
    rwa [Json.Members.lookup_without_of_ne otherKey]
  have distinct : form.fields.Nodup := List.Nodup.of_map _ (nodup_keys family form listed)
  rw [decode_object_of_form? known within, Arguments.read_eq_map_set distinct isField readOthers,
    readKey]
  rfl

/-- An object without one of its tags has no form. -/
theorem decode_without_tag (isTag : key ∈ family.tags) :
    family.decode (.object (Json.Members.without key members)) =
      .error (.unknown family.label (.object (Json.Members.without key members))) := by
  refine decode_object_of_unknown (List.find?_eq_none.mpr fun other tried admitted => ?_)
  have listed := List.mem_of_find?_eq_some exact.known
  obtain ⟨tag, isOther, removed⟩ := exists_tag_of_removed family form listed key
    ((exact.mem_keys_iff key).mp isKey) isTag other tried
  have present := Json.Members.hasKey_iff.mp (List.all_eq_true.mp admitted tag isOther)
  obtain ⟨present, different⟩ := Json.Members.mem_keys_without.mp present
  exact removed.elim different fun lacks => lacks ((exact.mem_keys_iff tag).mp present)

end Without

end Exact
end Family
end Wire

namespace State

variable {before behind members : Json.Members} {key : String} {state : State}

theorem mem_keys_of_decodeMembers
    (decoded : decodeMembers members = .ok state)
    (key : String) :
    key ∈ Json.Members.keys members ↔ key ∈ documentKeys := by
  obtain ⟨within, ⟨_, _, foundAccounts, _⟩, ⟨_, _, foundChoices, _⟩, ⟨_, _, foundValues, _⟩,
    foundTime⟩ := decodeMembers_eq_ok_iff.mp decoded
  refine ⟨within key, fun listed => ?_⟩
  simp only [documentKeys, List.mem_cons, List.not_mem_nil, or_false] at listed
  rcases listed with rfl | rfl | rfl | rfl
  · exact Json.Members.mem_keys_of_lookup_eq_some foundAccounts
  · exact Json.Members.mem_keys_of_lookup_eq_some foundChoices
  · exact Json.Members.mem_keys_of_lookup_eq_some foundValues
  · exact Json.Members.mem_keys_of_lookup_eq_some foundTime

theorem decodeMembers_insert
    (decoded : decodeMembers (before ++ behind) = .ok state)
    (isNew : key ∉ Json.Members.keys (before ++ behind))
    (value : Json) :
    decodeMembers (before ++ (key, value) :: behind) = .error (.unexpectedField "State" key) := by
  have sameKeys := mem_keys_of_decodeMembers decoded
  have extra := Json.Members.extraKey?_insert (fun other => (sameKeys other).mp)
    (fun isKey => isNew ((sameKeys key).mpr isKey)) value
  rw [decodeMembers, extra]

theorem readEntries_without_self (key : String) (members : Json.Members) :
    readEntries key (Json.Members.without key members) = .error (.missingField "State" key) := by
  rw [readEntries, Json.Members.read, Json.Members.lookup_without_self]
  rfl

theorem readEntries_without_of_ne
    {other : String}
    (different : other ≠ key)
    (members : Json.Members) :
    readEntries other (Json.Members.without key members) = readEntries other members := by
  rw [readEntries, readEntries, Json.Members.read, Json.Members.read,
    Json.Members.lookup_without_of_ne different]

/-- The entries under the keys are read and loaded one key after the other, so that a
missing key is missed behind the keys that are read before it. -/
theorem decodeMembers_without
    (decoded : decodeMembers members = .ok state)
    (isKey : key ∈ Json.Members.keys members) :
    decodeMembers (Json.Members.without key members) = .error (.missingField "State" key) := by
  have noExtra : Json.Members.extraKey? documentKeys (Json.Members.without key members) = none :=
    Json.Members.extraKey?_eq_none_iff.mpr fun other listed =>
      (mem_keys_of_decodeMembers decoded other).mp (Json.Members.mem_keys_without.mp listed).1
  obtain ⟨accounts, choices, boundValues, reads⟩ := exists_readsStepwise decoded
  have isKey := (mem_keys_of_decodeMembers decoded key).mp isKey
  simp only [documentKeys, List.mem_cons, List.not_mem_nil, or_false] at isKey
  simp only [decodeMembers, noExtra]
  rcases isKey with rfl | rfl | rfl | rfl
  · simp only [readEntries_without_self, Decoded.error_bind]
  · simp (disch := decide) only [readEntries_without_of_ne, reads.readAccounts, reads.loadsAccounts,
      readEntries_without_self, Decoded.ok_bind, Decoded.error_bind]
  · simp (disch := decide) only [readEntries_without_of_ne, reads.readAccounts, reads.loadsAccounts,
      reads.readChoices, reads.loadsChoices, readEntries_without_self, Decoded.ok_bind,
      Decoded.error_bind]
  · simp (disch := decide) only [readEntries_without_of_ne, reads.readAccounts, reads.loadsAccounts,
      reads.readChoices, reads.loadsChoices, reads.readValues, reads.loadsValues, Json.Members.read,
      Json.Members.lookup_without_self, Decoded.ok_bind, Decoded.error_bind]

end State

namespace Canonical.Kind

/-- The keys by which the forms of a kind are told apart.  States have one form only. -/
def tags : Kind → List String
  | node family => family.tags
  | state => []

/-- What values of a kind are called where none of their forms is found. -/
def label : Kind → String
  | node family => family.label
  | state => "State"

/-- The name of the form of a value. -/
def formName : (kind : Kind) → kind.Carrier → String
  | node family, value => family.formName value
  | state, _ => "State"

/-- In the place of an object, objects with other keys are refused: with a further key for
an extra key, and without a key for that key.  The error names the form of the value that
the object stands for, unless the keys no longer tell that form. -/
structure RefusesOtherKeys
    {α : Type}
    (read : Json → Decoded α)
    (members : Json.Members)
    (kind : Kind)
    (value : kind.Carrier) :
    Prop where
  /-- A further key that is no tag is the extra key of the form, whatever its value is and
  wherever it stands. -/
  insert : ∀ before behind key added, members = before ++ behind →
    key ∉ Json.Members.keys members → key ∉ kind.tags →
    read (.object (before ++ (key, added) :: behind)) =
      .error (.unexpectedField (kind.formName value) key)
  /-- With a further tag some key is extra. -/
  insert_tag : ∀ before behind key added, members = before ++ behind →
    key ∉ Json.Members.keys members →
    ∃ variant field, read (.object (before ++ (key, added) :: behind)) =
      .error (.unexpectedField variant field)
  /-- A key that is no tag is missed. -/
  without : ∀ key ∈ Json.Members.keys members, key ∉ kind.tags →
    read (.object (Json.Members.without key members)) =
      .error (.missingField (kind.formName value) key)
  /-- Without a tag an object has no form. -/
  without_tag : ∀ key ∈ Json.Members.keys members, key ∈ kind.tags →
    read (.object (Json.Members.without key members)) =
      .error (.unknown kind.label (.object (Json.Members.without key members)))

theorem RefusesOtherKeys.of_refused
    {α β : Type}
    {read : Json → Decoded α}
    {readWhole : Json → Decoded β}
    {members : Json.Members}
    {kind : Kind}
    {value : kind.Carrier}
    (refuses : RefusesOtherKeys read members kind value)
    (refused : ∀ other reason, read other = .error reason → readWhole other = .error reason) :
    RefusesOtherKeys readWhole members kind value where
  insert before behind key added split isNew noTag :=
    refused _ _ (refuses.insert before behind key added split isNew noTag)
  insert_tag before behind key added split isNew := by
    obtain ⟨variant, field, found⟩ := refuses.insert_tag before behind key added split isNew
    exact ⟨variant, field, refused _ _ found⟩
  without key isKey noTag := refused _ _ (refuses.without key isKey noTag)
  without_tag key isKey isTag := refused _ _ (refuses.without_tag key isKey isTag)

/-- The object of a value is refused with other keys. -/
theorem refusesOtherKeys_decode
    (kind : Kind)
    {members : Json.Members}
    {value : kind.Carrier}
    (decoded : decode (.object members) = .ok value) :
    RefusesOtherKeys (decode : Json → Decoded kind.Carrier) members kind value := by
  cases kind with
  | node family =>
      rw [decode_node] at decoded
      obtain ⟨form, exact, sameName⟩ := Wire.Family.exists_exact_of_decode decoded
      constructor
      · rintro before behind key added rfl isNew noTag
        rw [decode_node, formName, sameName]
        exact exact.decode_insert isNew noTag added
      · rintro before behind key added rfl isNew
        simp only [decode_node]
        exact exact.exists_decode_insert isNew added
      · intro key isKey noTag
        rw [decode_node, formName, sameName]
        exact exact.decode_without isKey noTag
      · intro key isKey isTag
        rw [decode_node]
        exact exact.decode_without_tag isKey isTag
  | state =>
      constructor
      · rintro before behind key added rfl isNew _
        exact State.decodeMembers_insert decoded isNew added
      · rintro before behind key added rfl isNew
        exact ⟨_, _, State.decodeMembers_insert decoded isNew added⟩
      · intro key isKey _
        exact State.decodeMembers_without decoded isKey
      · intro key _ isTag
        cases isTag

/-- Every object in a document that is read, at whatever depth, is the document of a value
of some kind, and the whole is refused if that object has other keys. -/
theorem exists_refusesOtherKeys
    (kind : Kind)
    {document : Json}
    {value : kind.Carrier}
    (decoded : decode document = .ok value)
    {path : Json.Path}
    {members : Json.Members}
    (found : document.part? path = some (.object members)) :
    ∃ (inner : Kind) (part : inner.Carrier), decode (.object members) = .ok part ∧
      RefusesOtherKeys (fun other => (decode (document.put path other) : Decoded kind.Carrier))
        members inner part := by
  obtain ⟨inner, part, decodedPart, refused⟩ := kind.exists_kind_of_part? decoded found
  exact ⟨inner, part, decodedPart, (inner.refusesOtherKeys_decode decodedPart).of_refused refused⟩

/-- The place of the comparison in `awaitedNotice`. -/
def noticeCondition : Json.Path :=
  [.key "when", .index 0, .key "case", .key "notify_if"]

/-- The members of that comparison. -/
def comparedMembers : Json.Members :=
  [("value", .number "3"), ("lt", .string "time_interval_end")]

/-- With the key of another comparison it is taken for that one, and without its second key
it is none. -/
theorem exists_refusesOtherKeys_awaitedNotice :
    (decode awaitedNotice : Decoded (node .contract).Carrier) =
        .ok (noticeBelow .intervalEnd) ∧
      awaitedNotice.part? noticeCondition = some (.object comparedMembers) ∧
      (∃ (inner : Kind) (part : inner.Carrier), decode (.object comparedMembers) = .ok part ∧
        RefusesOtherKeys
          (fun other => (decode (awaitedNotice.put noticeCondition other) :
            Decoded (node .contract).Carrier))
          comparedMembers inner part) ∧
      (decode (awaitedNotice.put noticeCondition
          (.object (("ge_than", .null) :: comparedMembers))) :
        Decoded (node .contract).Carrier) = .error (.unexpectedField "ValueGE" "lt") ∧
      (decode (awaitedNotice.put noticeCondition (.object [("value", .number "3")])) :
        Decoded (node .contract).Carrier) =
          .error (.unknownTag "observation" "object \x7bvalue\x7d") := by
  have decoded : (decode awaitedNotice : Decoded (node .contract).Carrier) =
      .ok (noticeBelow .intervalEnd) := by rfl
  have found : awaitedNotice.part? noticeCondition = some (.object comparedMembers) := by rfl
  exact ⟨decoded, found, exists_refusesOtherKeys _ decoded found, by rfl, by rfl⟩

end Canonical.Kind
end Covenant
