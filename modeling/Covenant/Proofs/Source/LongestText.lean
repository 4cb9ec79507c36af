import Covenant.Proofs.Source.Carried
import Covenant.Proofs.Source.Delivery

/-!
# The longest text in front of bytes

Some bytes begin with the bytes of a text, and of all such texts one is the longest
(`Utf8.IsLongestText`).  Requests on a source that delivers the bytes find just the
characters of that text.  Behind them they find the end of the input if no bytes are left,
and malformed bytes otherwise (`Scanner.requests_of_delivers`).  A lead byte may announce
bytes that are themselves the beginning of valid text; they are lost only when the
sequence in front of them has already failed.
-/

namespace Covenant
namespace Utf8

/-- A character is decoded in front of any further bytes. -/
theorem char?_append (c : Char) (more : List UInt8) :
    char? (String.utf8EncodeChar c ++ more) = some c := by
  rw [char?, List.toByteArray_append]
  exact ByteArray.utf8DecodeChar?_utf8EncodeChar_append

/-- Two characters in front of the same bytes are the same character. -/
theorem eq_of_utf8EncodeChar_append
    {c c' : Char}
    {more more' : List UInt8}
    (same : String.utf8EncodeChar c ++ more = String.utf8EncodeChar c' ++ more') :
    c = c' := by
  have decoded := char?_append c more
  rw [same, char?_append] at decoded
  exact (Option.some.inj decoded).symm

theorem toByteArray_encode (text : String) : (encode text).toByteArray = text.toByteArray :=
  String.utf8Encode_toList

/-- The standard decoder accepts just the bytes of texts. -/
theorem fromUTF8?_eq_some_iff
    {bytes : List UInt8}
    {text : String} :
    String.fromUTF8? bytes.toByteArray = some text ↔ bytes = encode text := by
  rw [← List.toByteArray_inj, toByteArray_encode, String.fromUTF8?]
  constructor
  · intro decoded
    split at decoded
    · rw [← Option.some.inj decoded, String.fromUTF8]
    · cases decoded
  · rintro same
    have valid : bytes.toByteArray.IsValidUTF8 := same ▸ text.isValidUTF8
    rw [dif_pos valid, Option.some.injEq, ← String.toByteArray_inj]
    exact same

theorem encode_cons (c : Char) (text : String) :
    encode (String.ofList (c :: text.toList)) = String.utf8EncodeChar c ++ encode text := by
  simp [encode]

/-- Bytes begin with those of a text, and no further character comes behind it. -/
theorem exists_encode_append (bytes : List UInt8) :
    ∃ (text : String) (tail : List UInt8), bytes = encode text ++ tail ∧ char? tail = none := by
  induction size : bytes.length using Nat.strongRecOn generalizing bytes with
  | ind count inductionHypothesis =>
      cases decoded : char? bytes with
      | none => exact ⟨"", bytes, rfl, decoded⟩
      | some c =>
          obtain ⟨more, rfl⟩ := exists_eq_append_of_char?_eq_some decoded
          have positive : 0 < (String.utf8EncodeChar c).length := by
            rw [String.length_utf8EncodeChar]
            exact c.utf8Size_pos
          have shorter : more.length < count := by
            rw [List.length_append] at size
            omega
          obtain ⟨text, tail, rfl, undecoded⟩ := inductionHypothesis _ shorter more rfl
          exact ⟨String.ofList (c :: text.toList), tail,
            by rw [encode_cons, List.append_assoc], undecoded⟩

/-- The longest beginning of some bytes that is valid UTF-8, and its text. -/
structure IsLongestText (bytes front : List UInt8) (text : String) : Prop where
  begins : front <+: bytes
  decoded : String.fromUTF8? front.toByteArray = some text
  longest : ∀ other, other <+: bytes → (String.fromUTF8? other.toByteArray).isSome →
    other.length ≤ front.length

/-- Where no character comes behind a text, no longer text begins. -/
theorem length_le_of_undecoded
    {tail : List UInt8}
    (undecoded : char? tail = none)
    (text text' : List Char)
    (begins : text'.flatMap String.utf8EncodeChar <+: text.flatMap String.utf8EncodeChar ++ tail) :
    (text'.flatMap String.utf8EncodeChar).length ≤
      (text.flatMap String.utf8EncodeChar).length := by
  induction text generalizing text' with
  | nil =>
      cases text' with
      | nil => exact Nat.le_refl _
      | cons c text' =>
          rw [List.flatMap_nil, List.nil_append, List.flatMap_cons] at begins
          obtain ⟨more, same⟩ := begins
          rw [← same, List.append_assoc, char?_append] at undecoded
          cases undecoded
  | cons c text inductionHypothesis =>
      cases text' with
      | nil => exact Nat.zero_le _
      | cons c' text' =>
          simp only [List.flatMap_cons, List.append_assoc] at begins
          obtain ⟨more, same⟩ := begins
          rw [List.append_assoc] at same
          obtain rfl := eq_of_utf8EncodeChar_append same
          have shorter := inductionHypothesis text' ⟨more, List.append_cancel_left same⟩
          simp only [List.flatMap_cons, List.length_append]
          exact Nat.add_le_add_left shorter _

theorem isLongestText_append
    {tail : List UInt8}
    (undecoded : char? tail = none)
    (text : String) :
    IsLongestText (encode text ++ tail) (encode text) text where
  begins := List.prefix_append _ _
  decoded := fromUTF8?_eq_some_iff.mpr rfl
  longest other begins isValid := by
    obtain ⟨text', decoded⟩ := Option.isSome_iff_exists.mp isValid
    obtain rfl := fromUTF8?_eq_some_iff.mp decoded
    exact length_le_of_undecoded undecoded text.toList text'.toList begins

end Utf8

namespace Reader

/-- The bytes that a source delivers are followed by nothing but reports of the end. -/
theorem Delivers.exists_bytes_eq
    {reader : Reader}
    {bytes : List UInt8}
    (delivers : reader.Delivers bytes) :
    ∃ ends, reader.bytes = bytes.map .byte ++ ends ∧ ∀ read ∈ ends, read = .endOfInput := by
  induction delivers with
  | nil => exact ⟨[], rfl, List.forall_mem_nil _⟩
  | delivered chunk _ inductionHypothesis =>
      obtain ⟨ends, same, ended⟩ := inductionHypothesis
      exact ⟨ends, by rw [bytes_delivered, same, List.map_append, List.append_assoc], ended⟩
  | interrupted _ inductionHypothesis => exact inductionHypothesis
  | endOfInput _ inductionHypothesis =>
      obtain ⟨ends, same, ended⟩ := inductionHypothesis
      exact ⟨.endOfInput :: ends, by rw [bytes_endOfInput, same]; rfl,
        List.forall_mem_cons.mpr ⟨rfl, ended⟩⟩

/-- Bytes that begin with no character give malformed bytes. -/
theorem exists_charactersFrom_eq_malformed
    {tail : List UInt8}
    (nonempty : tail ≠ [])
    (undecoded : Utf8.char? tail = none)
    {ends : List ByteRead}
    (ended : ∀ read ∈ ends, read = .endOfInput) :
    ∃ rest, charactersFrom none (tail.map .byte ++ ends) = .malformed :: rest := by
  obtain ⟨lead, following, rfl⟩ := List.exists_cons_of_ne_nil nonempty
  cases announces : Utf8.following? lead with
  | none =>
      rw [← List.singleton_append, List.map_append, List.append_assoc,
        charactersFrom_malformed (.noLead announces)]
      exact ⟨_, rfl⟩
  | some announced =>
      by_cases short : following.length < announced
      · obtain ⟨state, isNone, same⟩ := charactersFrom_incomplete (.begun announces short) ends
        rw [same]
        cases state with
        | none => cases isNone.mp rfl
        | some begun =>
            cases ends with
            | nil => exact ⟨[], rfl⟩
            | cons first rest =>
                obtain ⟨rfl, _⟩ := List.forall_mem_cons.mp ended
                exact ⟨_, rfl⟩
      · -- The announced bytes are all there; what they swallow is not looked at.
        obtain ⟨inside, behind, rfl, counted⟩ :
            ∃ inside behind, following = inside ++ behind ∧ inside.length = announced :=
          ⟨following.take announced, following.drop announced,
            (List.take_append_drop _ _).symm, by rw [List.length_take]; omega⟩
        have noCharacter : ∀ c, lead :: inside ≠ String.utf8EncodeChar c := by
          intro c isCharacter
          rw [← List.cons_append, isCharacter, Utf8.char?_append] at undecoded
          cases undecoded
        rw [← List.cons_append, List.map_append, List.append_assoc,
          charactersFrom_malformed (.noCharacter (counted ▸ announces) noCharacter)]
        exact ⟨_, rfl⟩

end Reader

namespace Scanner

/-- What some requests for a character give one after the other. -/
def requests (scanner : Scanner) : Nat → List (Except ScanError (Option Char))
  | 0 => []
  | n + 1 =>
    match read scanner with
    | .ok found after => .ok found :: requests after n
    | .error error after => .error error :: requests after n

variable (position : Position) (peeked : Option Char)

/-- Characters that a source gives are found one after the other. -/
theorem requests_append
    (text : List Char)
    (tail : List CharRead)
    (n : Nat) :
    requests ⟨text.map .char ++ tail, position, peeked⟩ (text.length + n) =
      text.map (fun c => .ok (some c)) ++ requests ⟨tail, position, peeked⟩ n := by
  induction text with
  | nil => rw [List.length_nil, Nat.zero_add]; rfl
  | cons c text inductionHypothesis =>
      rw [List.length_cons, Nat.succ_add, requests]
      exact congrArg _ inductionHypothesis

/-- Behind the end of the input every request finds the end again. -/
theorem requests_ended
    {tail : List CharRead}
    (ended : ∀ read ∈ tail, read = .endOfInput)
    (n : Nat) :
    requests ⟨tail, position, peeked⟩ n = List.replicate n (.ok none) := by
  induction n generalizing tail with
  | zero => rfl
  | succ n inductionHypothesis =>
      rw [List.replicate_succ]
      cases tail with
      | nil => exact congrArg _ (inductionHypothesis ended)
      | cons first rest =>
          obtain ⟨rfl, endedRest⟩ := List.forall_mem_cons.mp ended
          exact congrArg _ (inductionHypothesis endedRest)

/-- Requests on a source find the characters of the longest text in front of the bytes that
it delivers.  Behind them they find the end of the input, again and again, if the text makes
up all of the bytes; otherwise the next request finds bytes that form no character. -/
theorem requests_of_delivers
    {bytes : List UInt8}
    {reader : Reader}
    (delivers : reader.Delivers bytes) :
    ∃ front text, Utf8.IsLongestText bytes front text ∧
      (front = bytes → ∀ n,
        requests ⟨reader.characters, position, peeked⟩ (text.toList.length + n) =
          text.toList.map (fun c => .ok (some c)) ++ List.replicate n (.ok none)) ∧
      (front ≠ bytes →
        requests ⟨reader.characters, position, peeked⟩ (text.toList.length + 1) =
          text.toList.map (fun c => .ok (some c)) ++ [.error (.invalidUtf8 position)]) := by
  obtain ⟨ends, same, ended⟩ := delivers.exists_bytes_eq
  obtain ⟨text, tail, rfl, undecoded⟩ := Utf8.exists_encode_append bytes
  have found : reader.characters =
      text.toList.map .char ++ Reader.charactersFrom none (tail.map .byte ++ ends) := by
    rw [Reader.characters, same, List.map_append, List.append_assoc]
    exact Reader.charactersFrom_encode _ _
  refine ⟨_, text, Utf8.isLongestText_append undecoded text, fun whole n => ?_, fun part => ?_⟩
  · obtain rfl : tail = [] := List.self_eq_append_right.mp whole
    rw [found, requests_append]
    exact congrArg _ (requests_ended position peeked
      (Reader.charactersFrom_of_forall_endOfInput ended) n)
  · have nonempty : tail ≠ [] := fun none => part (List.self_eq_append_right.mpr none)
    obtain ⟨rest, malformed⟩ :=
      Reader.exists_charactersFrom_eq_malformed nonempty undecoded ended
    rw [found, requests_append, malformed]
    rfl

/-- A digit, and then the first bytes of a sequence of three, in which the third is another
digit. -/
def swallowedDigit : Reader :=
  [.delivered [0x35, 0xE2], .interrupted, .delivered [0x82, 0x36]]

theorem requests_swallowedDigit :
    swallowedDigit.Delivers [0x35, 0xE2, 0x82, 0x36] ∧
      ∃ front text, Utf8.IsLongestText [0x35, 0xE2, 0x82, 0x36] front text ∧
        front ≠ [0x35, 0xE2, 0x82, 0x36] ∧
        requests (ofReader swallowedDigit) (text.toList.length + 1) =
          text.toList.map (fun c => .ok (some c)) ++ [.error (.invalidUtf8 .start)] := by
  have delivers : swallowedDigit.Delivers [0x35, 0xE2, 0x82, 0x36] :=
    .delivered [0x35, 0xE2] (.interrupted (.delivered [0x82, 0x36] .nil))
  obtain ⟨front, text, isLongest, _, found⟩ := requests_of_delivers .start none delivers
  have invalid : String.fromUTF8? [0x35, 0xE2, 0x82, 0x36].toByteArray = none := by decide
  have part : front ≠ [0x35, 0xE2, 0x82, 0x36] := by
    rintro rfl
    exact Option.some_ne_none text (isLongest.decoded.symm.trans invalid)
  exact ⟨delivers, front, text, isLongest, part, found part⟩

end Scanner
end Covenant
