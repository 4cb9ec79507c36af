import Covenant.Proofs.Wire.Faults
import Covenant.Proofs.Wire.Kind

/-!
# Reading does not depend on the order of keys

Two documents that differ at most in the order of the keys in their objects are read
alike: both as the same node, or both not at all and for the same fault.  The form of an
object is settled by which keys it has, an extra key is a fault whichever it is, and the
fields are read in the order of the schema; so a document with several faults is refused
for the same one, however its keys are listed.
-/

namespace Covenant

open Decoded (Alike Agree)

namespace Json.Members

variable {members members' : Members} (sameKeys : (keys members).Perm (keys members'))
include sameKeys

theorem hasKey_eq_of_perm : hasKey members = hasKey members' := by
  funext key
  rw [Bool.eq_iff_iff, hasKey_iff, hasKey_iff, sameKeys.mem_iff]

theorem extraKey?_eq_none_iff_of_perm (allowed : List String) :
    extraKey? allowed members = none ↔ extraKey? allowed members' = none := by
  simp only [extraKey?_eq_none_iff, sameKeys.mem_iff]

end Json.Members

/-- What is behind the check for extra keys is reached by both objects or by neither. -/
theorem Decoded.agree_of_extraKey?
    {α : Type}
    {members members' : Json.Members}
    (sameKeys : (Json.Members.keys members).Perm (Json.Members.keys members'))
    (variant : String)
    (allowed : List String)
    {behind behind' : Decoded α}
    (agree : Agree behind behind') :
    Agree
      (match Json.Members.extraKey? allowed members with
        | some key => .error (.unexpectedField variant key)
        | none => behind)
      (match Json.Members.extraKey? allowed members' with
        | some key => .error (.unexpectedField variant key)
        | none => behind') := by
  have both := Json.Members.extraKey?_eq_none_iff_of_perm sameKeys allowed
  cases extra : Json.Members.extraKey? allowed members with
  | none =>
      rw [both.mp extra]
      exact agree
  | some key =>
      cases extra' : Json.Members.extraKey? allowed members' with
      | none => simp [both.mpr extra'] at extra
      | some key' => exact .error rfl

theorem Json.Members.alike_read
    {members members' : Members}
    (reorders : (Json.object members).Reorders (Json.object members'))
    (variant key : String) :
    Alike Json.Reorders (members.read variant key) (members'.read variant key) := by
  have found := reorders.rel_lookup key
  unfold Members.read
  generalize members.lookup key = value at found ⊢
  generalize members'.lookup key = value' at found ⊢
  cases found with
  | some found => exact .ok found.2
  | none => exact .error rfl

namespace Wire

theorem Arguments.agree_read
    {readField readField' : (field : Field) → Decoded field.content.Carrier}
    (agree : ∀ field, Agree (readField field) (readField' field))
    (fields : List Field) :
    Agree (Arguments.read readField fields) (Arguments.read readField' fields) := by
  induction fields with
  | nil => exact .refl _
  | cons field rest inductionHypothesis =>
      exact (agree field).bind fun first => inductionHypothesis.bind fun others => .refl _

namespace Family

theorem form?_eq_of_perm
    (family : Family)
    {members members' : Json.Members}
    (sameKeys : (Json.Members.keys members).Perm (Json.Members.keys members')) :
    family.form? members = family.form? members' := by
  unfold form? Form.admits
  rw [Json.Members.hasKey_eq_of_perm sameKeys]

/-- Objects with the same keys are read alike if their fields are. -/
theorem agree_decode_object
    (family : Family)
    {members members' : Json.Members}
    (sameKeys : (Json.Members.keys members).Perm (Json.Members.keys members'))
    (agree : ∀ variant field, Agree (Content.decodeField variant field members)
      (Content.decodeField variant field members')) :
    Agree (family.decode (.object members)) (family.decode (.object members')) := by
  simp only [decode, Content.decode, family.form?_eq_of_perm sameKeys]
  cases family.form? members' with
  | none => exact .error rfl
  | some form =>
      apply Decoded.agree_of_extraKey? sameKeys form.name form.keys
      exact (Arguments.agree_read (agree form.name) form.fields).map form.build.apply

/-- An array is a node of no family. -/
theorem agree_decode_array
    (family : Family)
    (items items' : List Json) :
    Agree (family.decode (.array items)) (family.decode (.array items')) := by
  cases family <;> exact .error rfl

end Family

namespace Content

theorem agree_decodeItems
    (family : Family)
    {items items' : List Json}
    (agree : List.Forall₂ (fun item item' => Agree (family.decode item) (family.decode item'))
      items items') :
    Agree (decodeItems family items) (decodeItems family items') := by
  induction agree with
  | nil => exact .refl _
  | cons agree _ inductionHypothesis =>
      exact agree.bind fun first => inductionHypothesis.bind fun others => .refl _

theorem agree_decodeField
    {members members' : Json.Members}
    (reorders : (Json.object members).Reorders (Json.object members'))
    (variant : String)
    (field : Field)
    (agree : ∀ part ∈ (Json.object members).parts, ∀ part', part.Reorders part' →
      Agree (decode variant field.content part) (decode variant field.content part')) :
    Agree (decodeField variant field members) (decodeField variant field members') := by
  rw [decodeField_eq, decodeField_eq]
  have found := reorders.rel_lookup field.key
  generalize members.lookup field.key = value at found ⊢
  generalize members'.lookup field.key = value' at found ⊢
  cases found with
  | some found => exact agree _ found.1 _ found.2
  | none => exact .error rfl

theorem agree_decode
    {document document' : Json}
    (reorders : document.Reorders document')
    (context : String)
    (content : Content) :
    Agree (content.decode context document) (content.decode context document') := by
  induction document using Json.inductionOnParts generalizing document' context content with
  | step document inductionHypothesis =>
      cases content with
      | text =>
          rw [decode_text, decode_text]
          exact Json.agree_readText reorders context
      | integer =>
          rw [decode_integer, decode_integer]
          exact Json.agree_readInteger reorders context
      | unsigned =>
          rw [decode_unsigned, decode_unsigned]
          exact Json.agree_readUnsigned reorders context
      | time =>
          rw [decode_time, decode_time]
          exact Json.agree_readTime reorders context
      | nodes family =>
          cases reorders.same with
          | array _ =>
              apply agree_decodeItems
              apply reorders.items.imp
              rintro item item' ⟨inside, reorders⟩
              have agree := inductionHypothesis item inside reorders context (.node family)
              rwa [decode_node, decode_node] at agree
          | _ => exact .error rfl
      | node family =>
          rw [decode_node, decode_node]
          cases reorders.same with
          | array _ => exact family.agree_decode_array _ _
          | object _ _ _ =>
              apply family.agree_decode_object reorders.same.keys_perm
              intro variant field
              apply agree_decodeField reorders
              intro part inside part' reorders
              exact inductionHypothesis part inside reorders variant field.content
          | _ => exact .refl _

end Content

theorem Family.agree_decode
    (family : Family)
    {document document' : Json}
    (reorders : document.Reorders document') :
    Agree (family.decode document) (family.decode document') := by
  have agree := Content.agree_decode reorders family.label (.node family)
  rwa [Content.decode_node, Content.decode_node] at agree

end Wire

namespace State

/-- A repeated key is a fault, however its document is described. -/
theorem agree_insertNew
    {α β : Type} [Ord α] [Std.TransOrd α]
    (map : Std.ExtTreeMap α β)
    (key : α)
    {context described described' : String}
    {added added' : Decoded (Std.ExtTreeMap α β)}
    (agree : Agree added added') :
    Agree (if key ∈ map then .error (.duplicateKey context described) else added)
      (if key ∈ map then .error (.duplicateKey context described') else added') := by
  split
  · exact .error rfl
  · exact agree

theorem agree_addAccount
    (accounts : Std.ExtTreeMap Account Nat)
    {entry entry' : Json}
    (reorders : entry.Reorders entry') :
    Agree (addAccount accounts entry) (addAccount accounts entry') := by
  apply (Json.alike_readPair reorders "accounts").bind
  rintro ⟨key, amount⟩ ⟨key', amount'⟩ ⟨reordersKey, reordersAmount⟩
  apply (Json.alike_readPair reordersKey "accounts").bind
  rintro ⟨owner, asset⟩ ⟨owner', asset'⟩ ⟨reordersOwner, reordersAsset⟩
  refine (Wire.Family.party.agree_decode reordersOwner).bind fun owner => ?_
  refine (Wire.Family.asset.agree_decode reordersAsset).bind fun asset => ?_
  refine (Json.agree_readNatural reordersAmount "accounts").bind fun amount => ?_
  exact agree_insertNew accounts _ (.refl _)

theorem agree_addChoice
    (choices : Std.ExtTreeMap ChoiceId Int)
    {entry entry' : Json}
    (reorders : entry.Reorders entry') :
    Agree (addChoice choices entry) (addChoice choices entry') := by
  apply (Json.alike_readPair reorders "choices").bind
  rintro ⟨key, chosen⟩ ⟨key', chosen'⟩ ⟨reordersKey, reordersChosen⟩
  refine (Wire.Family.choiceId.agree_decode reordersKey).bind fun choice => ?_
  apply agree_insertNew choices choice
  exact (Json.agree_readInteger reordersChosen "choices").bind fun chosen => .refl _

theorem agree_addBinding
    (boundValues : Std.ExtTreeMap String Int)
    {entry entry' : Json}
    (reorders : entry.Reorders entry') :
    Agree (addBinding boundValues entry) (addBinding boundValues entry') := by
  apply (Json.alike_readPair reorders "boundValues").bind
  rintro ⟨key, value⟩ ⟨key', value'⟩ ⟨reordersKey, reordersValue⟩
  refine (Json.agree_readText reordersKey "boundValues").bind fun name => ?_
  apply agree_insertNew boundValues name
  exact (Json.agree_readInteger reordersValue "boundValues").bind fun value => .refl _

theorem agree_foldlM
    {α : Type}
    {add : α → Json → Decoded α}
    (agree : ∀ loaded {entry entry' : Json}, entry.Reorders entry' →
      Agree (add loaded entry) (add loaded entry'))
    {entries entries' : List Json}
    (reorders : List.Forall₂ Json.Reorders entries entries')
    (loaded : α) :
    Agree (entries.foldlM add loaded) (entries'.foldlM add loaded) := by
  induction reorders generalizing loaded with
  | nil => exact .refl _
  | cons reorders _ inductionHypothesis =>
      rw [List.foldlM_cons, List.foldlM_cons]
      exact (agree loaded reorders).bind inductionHypothesis

/-- The entries under a key are loaded alike. -/
theorem agree_load
    {α β : Type}
    {members members' : Json.Members}
    (reorders : (Json.object members).Reorders (Json.object members'))
    (key : String)
    {add : α → Json → Decoded α}
    (agree : ∀ loaded {entry entry' : Json}, entry.Reorders entry' →
      Agree (add loaded entry) (add loaded entry'))
    (loaded : α)
    {next next' : α → Decoded β}
    (behind : ∀ loaded, Agree (next loaded) (next' loaded)) :
    Agree (readEntries key members >>= fun entries => entries.foldlM add loaded >>= next)
      (readEntries key members' >>= fun entries => entries.foldlM add loaded >>= next') := by
  have listed : Alike (List.Forall₂ Json.Reorders)
      (readEntries key members) (readEntries key members') :=
    (Json.Members.alike_read reorders "State" key).bind fun _ _ reorders =>
      Json.alike_readArray reorders "State"
  apply listed.bind
  intro entries entries' reorders
  exact (agree_foldlM agree reorders loaded).bind behind

theorem agree_decode
    {document document' : Json}
    (reorders : document.Reorders document') :
    Agree (decode document) (decode document') := by
  cases reorders.same with
  | object _ _ _ =>
      apply Decoded.agree_of_extraKey? reorders.same.keys_perm "State" documentKeys
      refine agree_load reorders "accounts" agree_addAccount ∅ fun accounts => ?_
      refine agree_load reorders "choices" agree_addChoice ∅ fun choices => ?_
      refine agree_load reorders "boundValues" agree_addBinding ∅ fun boundValues => ?_
      apply (Json.Members.alike_read reorders "State" "minTime").bind
      intro minTime minTime' reorders
      exact (Json.agree_readTime reorders "State").bind fun minTime => .refl _
  | _ => exact .error rfl

end State

namespace Canonical.Kind

/-- Documents that differ at most in the order of keys stand for the same value, or for
none and for the same fault. -/
theorem agree_decode_of_sameUpToKeyOrder
    (kind : Kind)
    {document document' : Json}
    (distinct : document.HasDistinctKeys)
    (same : document.SameUpToKeyOrder document') :
    Agree (decode document : Decoded kind.Carrier) (decode document') := by
  cases kind with
  | node family =>
      rw [decode_node, decode_node]
      exact family.agree_decode ⟨distinct, same⟩
  | state => exact State.agree_decode ⟨distinct, same⟩

/-- An assertion of a comparison that has two keys too many, besides other faults. -/
def extraKeys : Json :=
  .object [("then", .null), ("assert", .object
    [("zz", .null), ("value", .number "1"), ("aa", .null), ("lt", .number "-0")])]

/-- The same with all keys in another order. -/
def reorderedExtraKeys : Json :=
  .object [("assert", .object
    [("lt", .number "-0"), ("aa", .null), ("value", .number "1"), ("zz", .null)]), ("then", .null)]

theorem agree_decode_extraKeys :
    extraKeys.HasDistinctKeys ∧
      extraKeys.SameUpToKeyOrder reorderedExtraKeys ∧
      (decode extraKeys : Decoded (node .contract).Carrier) =
        .error (.unexpectedField "ValueLT" "zz") ∧
      (decode reorderedExtraKeys : Decoded (node .contract).Carrier) =
        .error (.unexpectedField "ValueLT" "aa") ∧
      Agree (decode extraKeys : Decoded (node .contract).Carrier) (decode reorderedExtraKeys) := by
  have distinct : extraKeys.HasDistinctKeys := by
    refine .object (by decide) (List.forall_mem_cons.mpr ⟨.null, ?_⟩)
    refine List.forall_mem_singleton.mpr (.object (by decide) ?_)
    refine List.forall_mem_cons.mpr ⟨.null, List.forall_mem_cons.mpr ⟨.number _, ?_⟩⟩
    exact List.forall_mem_cons.mpr ⟨.null, List.forall_mem_singleton.mpr (.number _)⟩
  have same : extraKeys.SameUpToKeyOrder reorderedExtraKeys := by
    refine .object (.swap _ _ _) rfl (.cons ?_ (.cons .null .nil))
    refine .object (List.reverse_perm _).symm rfl ?_
    exact .cons (.number _) (.cons .null (.cons (.number _) (.cons .null .nil)))
  exact ⟨distinct, same, rfl, rfl, agree_decode_of_sameUpToKeyOrder _ distinct same⟩

end Canonical.Kind
end Covenant
