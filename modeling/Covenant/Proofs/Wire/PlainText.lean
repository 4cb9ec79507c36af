import Covenant.Proofs.Json.PlainReading
import Covenant.Proofs.Wire.Normalization

/-!
# Accepted texts read plainly

A text that is accepted as a value has a plain reading, in which every object stays an
object.  Decoding is strict as far as documents go, but a wrapped number is replaced before
the decoder sees it.  So the plain reading of an accepted text is the document of its value
exactly if it has no wrapper (`Canonical.Kind.sameDocument_plain_iff`), and a wrapper is
all that may stand in it for a number.
-/

namespace Covenant

/-- Whatever is the same as a legible document but for the order of keys and of entries has
no wrapper. -/
theorem State.SameUpToOrder.not_hasWrapper
    {document document' : Json}
    (same : SameUpToOrder document document')
    (legible : document'.Legible) :
    ¬document.HasWrapper := by
  obtain ⟨sameKeys, accounts, choices, boundValues⟩ := same
  apply sameKeys.not_hasWrapper
  cases legible with
  | object distinct noNumberKey values =>
      refine .object distinct noNumberKey ?_
      simp only [List.forall_mem_cons] at values ⊢
      obtain ⟨legibleAccounts, legibleChoices, legibleValues, legibleTime⟩ := values
      exact ⟨legibleAccounts.of_perm accounts, legibleChoices.of_perm choices,
        legibleValues.of_perm boundValues, legibleTime⟩

namespace Canonical.Kind

/-- Documents that are the same as the document of a value have no wrapper. -/
theorem not_hasWrapper_of_sameDocument
    (kind : Kind)
    {document : Json}
    {value : kind.Carrier}
    (same : kind.SameDocument document (encode value)) :
    ¬document.HasWrapper := by
  cases kind with
  | node family => exact Json.SameUpToKeyOrder.not_hasWrapper same (legible_encode _ value)
  | state => exact State.SameUpToOrder.not_hasWrapper same (legible_encode _ value)

/-- An accepted text has a plain reading, which is the document of the value but for wrapped
numbers, for the order of keys and for that of the entries of states.  It is the document
of the value up to these orders exactly if it has no wrapper. -/
theorem sameDocument_plain_iff
    (kind : Kind)
    {text : String}
    {value : kind.Carrier}
    (accepted : fromCanonicalString text = .ok value) :
    ∃ plain document, Json.readPlain? text = some plain ∧
      plain.Unwraps document ∧ kind.SameDocument document (encode value) ∧
      (kind.SameDocument plain (encode value) ↔ ¬plain.HasWrapper) := by
  obtain ⟨document, parsed, decoded⟩ := fromCanonicalString_eq_ok_iff.mp accepted
  obtain ⟨plain, isPlain, unwraps⟩ := Json.exists_readPlain?_of_parse? parsed
  have distinct := (Json.parse?_eq_some parsed).1
  have same : kind.SameDocument document (encode value) := by
    cases kind with
    | node family =>
        rw [decode_node] at decoded
        rw [encode_node]
        exact family.same_of_decode distinct decoded
    | state => exact State.same_of_decode distinct decoded
  refine ⟨plain, document, isPlain, unwraps, same, kind.not_hasWrapper_of_sameDocument, ?_⟩
  intro bare
  rwa [unwraps.eq_of_not_hasWrapper bare]

/-- A quotient whose divisor is written with a wrapper first and as a numeral after that. -/
def overwrittenWrapper : String :=
  "\x7b\"by\":\x7b\"$serde_json::private::Number\":\"2\"\x7d," ++
    "\"divide\":\"time_interval_start\",\"by\":3\x7d"

theorem sameDocument_plain_overwrittenWrapper :
    fromCanonicalString overwrittenWrapper = .ok quotient ∧
      ∃ plain document, Json.readPlain? overwrittenWrapper = some plain ∧
        plain.Unwraps document ∧ (node .value).SameDocument document (encode quotient) ∧
        ((node .value).SameDocument plain (encode quotient) ↔ ¬plain.HasWrapper) := by
  have lexemes : Json.Lexeme.sequence? overwrittenWrapper.toList =
      some [.openObject, .string (some "by"), .colon, .openObject,
        .string (some Json.numberKey), .colon, .string (some "2"), .closeObject, .comma,
        .string (some "divide"), .colon, .string (some "time_interval_start"), .comma,
        .string (some "by"), .colon, .number "3", .closeObject] := by decide +kernel
  have parsed : Json.parse? overwrittenWrapper = some (.object
      [("by", .number "3"), ("divide", .string "time_interval_start")]) := by
    rw [Json.parse?, Json.Written.ofText?, lexemes]
    rfl
  have accepted : fromCanonicalString overwrittenWrapper = .ok quotient :=
    fromCanonicalString_eq_ok_iff.mpr ⟨_, parsed, by rfl⟩
  exact ⟨accepted, sameDocument_plain_iff (node .value) accepted⟩

/-- A constant that is written as a wrapper. -/
def wrappedConstant : String :=
  "\x7b\"$serde_json::private::Number\":\"5\"\x7d"

/-- The value that `wrappedConstant` stands for. -/
def constant : (node .value).Carrier :=
  Value.constant 5

/-- A wrapped constant is accepted, and yet its plain reading is an object, which is not the
document of the constant. -/
theorem not_sameDocument_plain_wrappedConstant :
    fromCanonicalString wrappedConstant = .ok constant ∧
      Json.readPlain? wrappedConstant = some (.object [(Json.numberKey, .string "5")]) ∧
      ¬(node .value).SameDocument (.object [(Json.numberKey, .string "5")]) (encode constant) := by
  have lexemes : Json.Lexeme.sequence? wrappedConstant.toList =
      some [.openObject, .string (some Json.numberKey), .colon, .string (some "5"),
        .closeObject] := by decide +kernel
  have parsed : Json.parse? wrappedConstant = some (.number "5") := by
    rw [Json.parse?, Json.Written.ofText?, lexemes]
    rfl
  refine ⟨fromCanonicalString_eq_ok_iff.mpr ⟨_, parsed, by rfl⟩, ?_, fun same => ?_⟩
  · rw [Json.readPlain?, Json.Written.ofText?, lexemes]
    rfl
  · exact (node .value).not_hasWrapper_of_sameDocument same (.here "5")

end Canonical.Kind
end Covenant
