import Covenant.Proofs.Json.ReadDocument
import Covenant.Proofs.Wire.CanonicalText
import Covenant.Proofs.Wire.Strictness

/-!
# Normal forms of accepted texts

A text that is accepted as a value may write it in many ways: with blanks and escapes,
with keys in any order, or with keys that are overwritten further on.  Its normal form is
the canonical text of the value.  As the document of a value is as high as any document
that is read as the value, the normal form is never too high to be accepted in turn, and
it is its own normal form.
-/

namespace Covenant

namespace State

/-- Neither the order of keys nor that of entries matters for the height. -/
theorem SameUpToOrder.height_eq
    {document document' : Json}
    (same : SameUpToOrder document document') :
    document.height = document'.height := by
  obtain ⟨sameKeys, accounts, choices, boundValues⟩ := same
  rw [sameKeys.height_eq]
  simp only [Json.height, Json.heightOfMembers, Json.heightOfItems_eq_of_perm accounts,
    Json.heightOfItems_eq_of_perm choices, Json.heightOfItems_eq_of_perm boundValues]

end State

theorem fromCanonicalString_eq_ok_iff
    {α : Type}
    [Canonical α]
    {text : String}
    {value : α} :
    fromCanonicalString text = .ok value ↔
      ∃ document, Json.parse? text = some document ∧ Canonical.decode document = .ok value := by
  rw [fromCanonicalString]
  cases Json.parse? text <;> simp

namespace Canonical.Kind

/-- The normal form of a text: the canonical text of the value that it stands for. -/
def normalize (kind : Kind) (text : String) : Decoded String :=
  (fromCanonicalString text : Decoded kind.Carrier).map toCanonicalString

/-- The document of a value is as high as any document that is read as the value. -/
theorem height_encode_of_decode
    (kind : Kind)
    {document : Json}
    {value : kind.Carrier}
    (distinct : document.HasDistinctKeys)
    (decoded : decode document = .ok value) :
    (encode value).height = document.height := by
  cases kind with
  | node family =>
      rw [decode_node] at decoded
      rw [encode_node]
      exact (family.same_of_decode distinct decoded).height_eq.symm
  | state => exact (State.same_of_decode distinct decoded).height_eq.symm

/-- The canonical text of a value that some text stands for stands for the value too. -/
theorem fromCanonicalString_again
    (kind : Kind)
    {text : String}
    {value : kind.Carrier}
    (accepted : fromCanonicalString text = .ok value) :
    fromCanonicalString (toCanonicalString value) = .ok value := by
  obtain ⟨document, parsed, decoded⟩ := fromCanonicalString_eq_ok_iff.mp accepted
  obtain ⟨distinct, low⟩ := Json.parse?_eq_some parsed
  have lowAgain : (encode value).height ≤ Json.maxHeight := by
    rw [kind.height_encode_of_decode distinct decoded]
    exact low
  refine fromCanonicalString_eq_ok_iff.mpr ⟨encode value, ?_, ?_⟩
  · rw [toCanonicalString, Json.parse?_compact (legible_encode kind value), if_pos lowAgain]
  · cases kind with
    | node family =>
        rw [decode_node, encode_node]
        exact family.decode_encode value
    | state => exact State.decode_encode value

/-- Taking the normal form of a text twice gives what taking it once gives, which may be
a refusal. -/
theorem normalize_bind_normalize
    (kind : Kind)
    (text : String) :
    (kind.normalize text).bind kind.normalize = kind.normalize text := by
  cases read : (fromCanonicalString text : Decoded kind.Carrier) with
  | error fault =>
      rw [normalize, read]
      rfl
  | ok value =>
      have again := kind.fromCanonicalString_again read
      calc (kind.normalize text).bind kind.normalize
          = kind.normalize (toCanonicalString value) := by rw [normalize, read]; rfl
        _ = .ok (toCanonicalString value) := by rw [normalize, again]; rfl
        _ = kind.normalize text := by rw [normalize, read]; rfl

/-- However a text writes a value, the canonical text of the value is accepted in turn:
it stands for the same value and is its own normal form. -/
theorem normalize_of_accepted
    (kind : Kind)
    {text : String}
    {value : kind.Carrier}
    (accepted : fromCanonicalString text = .ok value) :
    fromCanonicalString (toCanonicalString value) = .ok value ∧
      kind.normalize text = .ok (toCanonicalString value) ∧
      kind.normalize (toCanonicalString value) = .ok (toCanonicalString value) := by
  have again := kind.fromCanonicalString_again accepted
  refine ⟨again, ?_, ?_⟩
  · rw [normalize, accepted]
    rfl
  · rw [normalize, again]
    rfl

/-- A quotient written with blanks and an escape, with its keys out of order and with one
of them overwritten. -/
def looseQuotient : String :=
  "\x7b \"by\":2, \"divide\" : \"time_interval_st\\u0061rt\",\n  \"by\": 3 \x7d"

/-- The value that `looseQuotient` stands for. -/
def quotient : (node .value).Carrier :=
  Value.divide .intervalStart (.constant 3)

theorem normalize_looseQuotient :
    fromCanonicalString looseQuotient = .ok quotient ∧
      toCanonicalString quotient = "\x7b\"divide\":\"time_interval_start\",\"by\":3\x7d" ∧
      fromCanonicalString (toCanonicalString quotient) = .ok quotient ∧
      (node .value).normalize looseQuotient = .ok (toCanonicalString quotient) ∧
      (node .value).normalize (toCanonicalString quotient) = .ok (toCanonicalString quotient) := by
  have lexemes : Json.Lexeme.sequence? looseQuotient.toList =
      some [.openObject, .string (some "by"), .colon, .number "2", .comma,
        .string (some "divide"), .colon, .string (some "time_interval_start"), .comma,
        .string (some "by"), .colon, .number "3", .closeObject] := by decide +kernel
  have parsed : Json.parse? looseQuotient = some (.object
      [("by", .number "3"), ("divide", .string "time_interval_start")]) := by
    rw [Json.parse?, Json.Written.ofText?, lexemes]
    rfl
  have accepted : fromCanonicalString looseQuotient = .ok quotient :=
    fromCanonicalString_eq_ok_iff.mpr ⟨_, parsed, by rfl⟩
  exact ⟨accepted, by decide +kernel, normalize_of_accepted (node .value) accepted⟩

end Canonical.Kind
end Covenant
