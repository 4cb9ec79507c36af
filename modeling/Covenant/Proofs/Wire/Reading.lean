import Covenant.Wire.Decode
import Mathlib.Data.List.Forall2

/-!
# When reading succeeds

For every reader of the format there is an equivalence that says on which documents
it succeeds and with what.  Integers and texts are read from exactly one document
each; an array of nodes is read item by item; and an object is read by settling its
form and its keys and then reading each field under its key.
-/

namespace Covenant

namespace Decoded

theorem ok_bind {α β : Type} (value : α) (next : α → Decoded β) :
    (Except.ok value >>= next) = next value := rfl

theorem error_bind {α β : Type} (reason : DecodeError) (next : α → Decoded β) :
    (Except.error reason >>= next) = .error reason := rfl

theorem bind_eq_ok_iff
    {α β : Type}
    {first : Decoded α}
    {next : α → Decoded β}
    {result : β} :
    first >>= next = .ok result ↔ ∃ value, first = .ok value ∧ next value = .ok result := by
  cases first with
  | error reason => simp [Bind.bind, Except.bind]
  | ok value => simp [Bind.bind, Except.bind]

theorem map_eq_ok_iff
    {α β : Type}
    {read : Decoded α}
    {change : α → β}
    {result : β} :
    read.map change = .ok result ↔ ∃ value, read = .ok value ∧ change value = result := by
  cases read with
  | error reason => simp [Except.map]
  | ok value => simp [Except.map]

end Decoded

namespace Json

theorem readText_eq_ok_iff
    {context text : String}
    {document : Json} :
    document.readText context = .ok text ↔ document = .string text := by
  cases document <;> simp [readText]

theorem readArray_eq_ok_iff
    {context : String}
    {items : List Json}
    {document : Json} :
    document.readArray context = .ok items ↔ document = .array items := by
  cases document <;> simp [readArray]

theorem readPair_eq_ok_iff
    {context : String}
    {first second document : Json} :
    document.readPair context = .ok (first, second) ↔ document = .array [first, second] := by
  unfold readPair
  split
  · simp
  · rename_i noPair
    simpa using fun same => noPair _ _ same

theorem readInteger_eq_ok_iff
    {context : String}
    {n : Int}
    {document : Json} :
    document.readInteger context = .ok n ↔ document = .integer n := by
  cases document with
  | number literal =>
      have exact := @Decimal.toInt?_eq_some_iff literal n
      cases read : Decimal.toInt? literal <;> simp_all [readInteger, integer]
  | _ => simp [readInteger, integer]

theorem readNatural_eq_ok_iff
    {context : String}
    {n : Nat}
    {document : Json} :
    document.readNatural context = .ok n ↔ document = .integer n := by
  rw [readNatural, Decoded.bind_eq_ok_iff]
  constructor
  · rintro ⟨value, read, accepted⟩
    cases value with
    | ofNat m =>
        obtain rfl : m = n := by simpa using accepted
        exact readInteger_eq_ok_iff.mp read
    | negSucc m => simp at accepted
  · intro written
    exact ⟨n, readInteger_eq_ok_iff.mpr written, rfl⟩

theorem readUnsigned_eq_ok_iff
    {context : String}
    {n : UInt64}
    {document : Json} :
    document.readUnsigned context = .ok n ↔ document = .integer n.toNat := by
  rw [readUnsigned, Decoded.bind_eq_ok_iff]
  constructor
  · rintro ⟨value, read, accepted⟩
    split at accepted
    · rename_i fits
      obtain rfl : UInt64.ofNat value.toNat = n := by simpa using accepted
      have same : ((UInt64.ofNat value.toNat).toNat : Int) = value := by
        rw [UInt64.toNat_ofNat_of_lt' (by omega)]
        omega
      rw [same]
      exact readInteger_eq_ok_iff.mp read
    · simp at accepted
  · intro written
    refine ⟨n.toNat, readInteger_eq_ok_iff.mpr written, ?_⟩
    have fits : (n.toNat : Int) < (UInt64.size : Nat) := by exact_mod_cast n.toNat_lt_size
    rw [if_pos ⟨by omega, fits⟩]
    simp

theorem readTime_eq_ok_iff
    {context : String}
    {n : Int64}
    {document : Json} :
    document.readTime context = .ok n ↔ document = .integer n.toInt := by
  rw [readTime, Decoded.bind_eq_ok_iff]
  constructor
  · rintro ⟨value, read, accepted⟩
    split at accepted
    · rename_i fits
      obtain rfl : Int64.ofInt value = n := by simpa using accepted
      rw [Int64.toInt_ofInt_of_le fits.1 (Int.lt_of_le_of_lt fits.2 (by decide))]
      exact readInteger_eq_ok_iff.mp read
    · simp at accepted
  · intro written
    refine ⟨n.toInt, readInteger_eq_ok_iff.mpr written, ?_⟩
    rw [if_pos ⟨n.minValue_le_toInt, n.toInt_le⟩, Int64.ofInt_toInt]

namespace Members

theorem read_eq_ok_iff
    {variant key : String}
    {members : Members}
    {document : Json} :
    members.read variant key = .ok document ↔ members.lookup key = some document := by
  unfold Members.read
  cases members.lookup key <;> simp

/-- An object has no extra key if all its keys are among the given ones. -/
theorem extraKey?_eq_none_iff
    {allowed : List String}
    {members : Members} :
    extraKey? allowed members = none ↔ ∀ key ∈ keys members, key ∈ allowed := by
  simp [extraKey?]

end Members
end Json

namespace Wire

namespace Arguments

/-- Every field of a form has an argument for which the given property holds. -/
def Each
    (holds : (field : Field) → field.content.Carrier → Prop) :
    (fields : List Field) → Arguments fields → Prop
  | [], _ => True
  | field :: rest, (first, others) => holds field first ∧ Each holds rest others

theorem read_eq_ok_iff
    {readField : (field : Field) → Decoded field.content.Carrier}
    {fields : List Field}
    {arguments : Arguments fields} :
    Arguments.read readField fields = .ok arguments ↔
      Each (fun field argument => readField field = .ok argument) fields arguments := by
  induction fields with
  | nil => simp [Arguments.read, Each]
  | cons field rest inductionHypothesis =>
      obtain ⟨first, others⟩ := arguments
      simp only [Arguments.read, Decoded.bind_eq_ok_iff, inductionHypothesis, pure, Except.pure,
        Except.ok.injEq, Prod.mk.injEq, Each]
      constructor
      · rintro ⟨_, found, _, read, rfl, rfl⟩
        exact ⟨found, read⟩
      · rintro ⟨found, read⟩
        exact ⟨first, found, others, read, rfl, rfl⟩

end Arguments

namespace Content

@[simp] theorem decode_text (context : String) (document : Json) :
    decode context .text document = document.readText context := by
  cases document <;> rfl

@[simp] theorem decode_integer (context : String) (document : Json) :
    decode context .integer document = document.readInteger context := by
  cases document <;> rfl

@[simp] theorem decode_unsigned (context : String) (document : Json) :
    decode context .unsigned document = document.readUnsigned context := by
  cases document <;> rfl

@[simp] theorem decode_time (context : String) (document : Json) :
    decode context .time document = document.readTime context := by
  cases document <;> rfl

theorem decodeItems_eq_ok_iff
    {family : Family}
    {items : List Json}
    {nodes : List family.Node} :
    decodeItems family items = .ok nodes ↔
      List.Forall₂ (fun item node => family.decode item = .ok node) items nodes := by
  induction items generalizing nodes with
  | nil => simp [decodeItems, eq_comm]
  | cons item rest inductionHypothesis =>
      simp only [decodeItems, Decoded.bind_eq_ok_iff, inductionHypothesis, pure, Except.pure,
        Except.ok.injEq, List.forall₂_cons_left_iff]
      constructor
      · rintro ⟨first, found, others, read, rfl⟩
        exact ⟨first, others, found, read, rfl⟩
      · rintro ⟨first, others, found, read, rfl⟩
        exact ⟨first, found, others, read, rfl⟩

theorem decode_nodes_eq_ok_iff
    {context : String}
    {family : Family}
    {document : Json}
    {nodes : List family.Node} :
    decode context (.nodes family) document = .ok nodes ↔
      ∃ items, document = .array items ∧
        List.Forall₂ (fun item node => family.decode item = .ok node) items nodes := by
  cases document with
  | array items => simp [decode, decodeItems_eq_ok_iff]
  | _ => simp [decode]

/-- A field is read from the value of its key. -/
theorem decodeField_eq
    (variant : String)
    (field : Field)
    (members : Json.Members) :
    decodeField variant field members =
      match members.lookup field.key with
      | some document => decode variant field.content document
      | none => .error (.missingField variant field.key) := by
  induction members with
  | nil => rfl
  | cons member rest inductionHypothesis =>
      obtain ⟨key, document⟩ := member
      by_cases same : key = field.key
      · simp [decodeField, same]
      · have different : (field.key == key) = false :=
          beq_eq_false_iff_ne.mpr (Ne.symm same)
        rw [decodeField, if_neg same, inductionHypothesis, List.lookup_cons, different]

theorem decodeField_eq_ok_iff
    {variant : String}
    {field : Field}
    {members : Json.Members}
    {argument : field.content.Carrier} :
    decodeField variant field members = .ok argument ↔
      ∃ document, members.lookup field.key = some document ∧
        decode variant field.content document = .ok argument := by
  rw [decodeField_eq]
  cases members.lookup field.key <;> simp

/-- The context matters only for contents that hold no node. -/
theorem decode_node
    (context : String)
    (family : Family)
    (document : Json) :
    decode context (.node family) document = family.decode document := by
  cases document <;> rfl

end Content

namespace Family

theorem decode_object_eq_ok_iff
    {family : Family}
    {members : Json.Members}
    {node : family.Node} :
    family.decode (.object members) = .ok node ↔
      ∃ form, family.form? members = some form ∧
        (∀ key ∈ Json.Members.keys members, key ∈ form.keys) ∧
        ∃ arguments : Arguments form.fields,
          Arguments.Each
            (fun field argument => ∃ document, members.lookup field.key = some document ∧
              field.content.decode form.name document = .ok argument)
            form.fields arguments ∧
          form.build.apply arguments = node := by
  simp only [decode, Content.decode]
  split
  · rename_i unknown
    simp [unknown]
  · rename_i form known
    simp only [known, Option.some.injEq, exists_eq_left', ← Json.Members.extraKey?_eq_none_iff]
    split
    · rename_i key extra
      simp [extra]
    · rename_i noExtra
      simp only [noExtra, true_and, Decoded.map_eq_ok_iff, Arguments.read_eq_ok_iff,
        Content.decodeField_eq_ok_iff]

theorem decode_eq_readAtom
    {family : Family}
    {document : Json}
    (noObject : ∀ members, document ≠ .object members) :
    family.decode document = family.readAtom document := by
  cases document with
  | object members => exact absurd rfl (noObject members)
  | _ => rfl

end Family
end Wire
end Covenant
