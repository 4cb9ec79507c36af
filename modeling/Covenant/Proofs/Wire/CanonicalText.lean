import Covenant.Proofs.Json.CompactDocument
import Covenant.Proofs.Wire.RoundTrip

/-!
# Canonical texts are read back

The documents of values are legible: their numbers are integers, and every form has
each of its keys once and lacks the key that marks a wrapped number.  A canonical text
is therefore read back as its value as long as the document of the value is not too
high, and no sooner refused than that.  What is refused for its height still identifies
its value: values of one kind have different documents, and legible documents have
different texts.
-/

namespace Covenant
namespace Wire

namespace Family

theorem numberKey_not_mem_keys (family : Family) :
    ∀ form ∈ family.forms, Json.numberKey ∉ form.keys := by
  cases family <;> decide

/-- A document that is read as an atom is legible. -/
theorem legible_of_readAtom
    {family : Family}
    {document : Json}
    {node : family.Node}
    (read : family.readAtom document = .ok node) :
    document.Legible := by
  unfold readAtom at read
  split at read
  · exact .string _
  · exact .string _
  · exact .string _
  · exact .string _
  · obtain ⟨n, found, _⟩ := Decoded.map_eq_ok_iff.mp read
    rw [Json.readInteger_eq_ok_iff.mp found]
    exact .integer n
  · exact .bool _
  · cases read

end Family

theorem Content.legible_encode
    (content : Content)
    (carrier : content.Carrier) :
    (content.encode carrier).Legible := by
  induction content, carrier using Content.inductionOnForms with
  | text value => exact .string value
  | integer n => exact .integer n
  | unsigned n => exact .integer _
  | time n => exact .integer _
  | nodes family listed legible => exact .array (List.forall_mem_map.mpr legible)
  | atom family node isAtom => exact Family.legible_of_readAtom isAtom.2
  | built family form arguments listed legible =>
      obtain ⟨members, same, written⟩ := Family.encode_build listed arguments
      have keys := Arguments.keys_perm_of_perm_write written
      have legibleMembers : ∀ member ∈ Arguments.write form.fields arguments,
          member.2.Legible := Arguments.forall_mem_write_iff.mpr legible
      change (family.encode _).Legible
      rw [same]
      refine .object ?_ ?_ ?_
      · exact keys.nodup_iff.mpr (family.nodup_keys form listed)
      · exact fun present => family.numberKey_not_mem_keys form listed (keys.mem_iff.mp present)
      · intro member inside
        exact legibleMembers member (written.mem_iff.mp inside)

theorem Family.legible_encode
    (family : Family)
    (node : family.Node) :
    (family.encode node).Legible :=
  Content.legible_encode (.node family) node

end Wire

namespace State

theorem legible_encodeBalance (account : Account) (amount : Nat) :
    (encodeBalance account amount).Legible := by
  have owner := Wire.Family.legible_encode .party account.owner
  have asset := Wire.Family.legible_encode .asset account.asset
  have key : (Json.array [account.owner.encode, account.asset.encode]).Legible :=
    .array (List.forall_mem_cons.mpr ⟨owner, List.forall_mem_singleton.mpr asset⟩)
  exact .array (List.forall_mem_cons.mpr ⟨key, List.forall_mem_singleton.mpr (.integer _)⟩)

theorem legible_encodeChoice (choice : ChoiceId) (chosen : Int) :
    (encodeChoice choice chosen).Legible := by
  have key := Wire.Family.legible_encode .choiceId choice
  exact .array (List.forall_mem_cons.mpr ⟨key, List.forall_mem_singleton.mpr (.integer _)⟩)

theorem legible_encodeBinding (name : String) (value : Int) :
    (encodeBinding name value).Legible :=
  .array (List.forall_mem_cons.mpr ⟨.string _, List.forall_mem_singleton.mpr (.integer _)⟩)

theorem legible_encode (state : State) : state.encode.Legible := by
  refine .object (by simp [Json.Members.keys]) (by simp [Json.Members.keys, Json.numberKey]) ?_
  refine List.forall_mem_cons.mpr ⟨?_, List.forall_mem_cons.mpr ⟨?_,
    List.forall_mem_cons.mpr ⟨?_, List.forall_mem_singleton.mpr (.integer _)⟩⟩⟩
  · exact .array (List.forall_mem_map.mpr fun entry _ => legible_encodeBalance entry.1 entry.2)
  · exact .array (List.forall_mem_map.mpr fun entry _ => legible_encodeChoice entry.1 entry.2)
  · exact .array (List.forall_mem_map.mpr fun entry _ => legible_encodeBinding entry.1 entry.2)

end State

namespace Canonical.Kind

theorem legible_encode
    (kind : Kind)
    (value : kind.Carrier) :
    (encode value).Legible := by
  cases kind with
  | node family =>
      rw [encode_node]
      exact family.legible_encode value
  | state => exact State.legible_encode value

/-- The canonical text of a value is read back as the value if the longest path into its
document goes through at most 127 arrays and objects, and is refused as malformed
otherwise. -/
theorem fromCanonicalString_toCanonicalString
    (kind : Kind)
    (value : kind.Carrier) :
    fromCanonicalString (toCanonicalString value) =
      if (encode value).height ≤ 127 then .ok value else .error .malformed := by
  rw [fromCanonicalString, toCanonicalString, Json.parse?_compact (legible_encode kind value),
    Json.maxHeight]
  by_cases low : (encode value).height ≤ 127
  · rw [if_pos low, if_pos low]
    change decode (encode value) = .ok value
    cases kind with
    | node family =>
        rw [decode_node, encode_node]
        exact family.decode_encode value
    | state => exact State.decode_encode value
  · rw [if_neg low, if_neg low]

/-- Values of a kind have different documents. -/
theorem encode_injective (kind : Kind) : Function.Injective (encode : kind.Carrier → Json) := by
  intro value value' same
  cases kind with
  | node family =>
      rw [encode_node, encode_node] at same
      exact family.encode_injective same
  | state => exact State.encode_injective same

/-- The text of a document is that of one value of a kind at most. -/
theorem eq_of_compact_encode_eq
    {kind : Kind}
    {value value' : kind.Carrier}
    (same : (encode value).compact = (encode value').compact) :
    value = value' := by
  have legible := legible_encode kind value
  have legible' := legible_encode kind value'
  exact kind.encode_injective (legible.eq_of_compact_eq legible' same)

/-- Two values of a kind have the same canonical text only if they are the same, however
high their documents are. -/
theorem toCanonicalString_eq_iff
    (kind : Kind)
    (value value' : kind.Carrier) :
    toCanonicalString value = toCanonicalString value' ↔ value = value' :=
  ⟨eq_of_compact_encode_eq, congrArg toCanonicalString⟩

end Canonical.Kind
end Covenant
