import Covenant.Source.Scanner

/-!
# Requests on a source

A scanner is given the whole sequence of characters that its source will give
(`Reader.characters`).  This module asks the source step by step instead: a byte is the
first one of the current chunk, an interrupted read is repeated, and a character takes
its lead byte and then as many further bytes as that one announces.  Both views agree:
the sequence is what one request after the other gives (`Reader.characters_eq_or_cons`),
and the scanner asks for a character by exactly one such request
(`Scanner.read_characters`).
-/

namespace Covenant
namespace Reader

/-- Asks a source for one byte, and gives what is left of the source. -/
def nextByte : Reader → ByteRead × Reader
  | [] => (.endOfInput, [])
  | .delivered [] :: rest => nextByte rest
  | .delivered (value :: chunk) :: rest => (.byte value, .delivered chunk :: rest)
  | .interrupted :: rest => nextByte rest
  | .failure message :: rest => (.failure message, rest)
  | .endOfInput :: rest => (.endOfInput, rest)

/-- Asks for as many bytes as a sequence lacks, and reads the sequence. -/
def nextSequence (sequence : List UInt8) : Nat → Reader → CharRead × Reader
  | 0, reader => (.ofSequence sequence, reader)
  | lacking + 1, reader =>
    match reader.nextByte with
    | (.byte value, rest) => nextSequence (sequence ++ [value]) lacking rest
    | (.failure message, rest) => (.failure message, rest)
    | (.endOfInput, rest) => (.malformed, rest)

/-- Asks a source for one character, and gives what is left of the source. -/
def nextCharacter (reader : Reader) : CharRead × Reader :=
  match reader.nextByte with
  | (.byte lead, rest) =>
    match Utf8.following? lead with
    | some lacking => nextSequence [lead] lacking rest
    | none => (.malformed, rest)
  | (.failure message, rest) => (.failure message, rest)
  | (.endOfInput, rest) => (.endOfInput, rest)

/-- The bytes of a source are what one request after the other gives, until the source
has nothing left but the end of the input. -/
theorem bytes_eq_or_cons (reader : Reader) :
    (reader.bytes = [] ∧ reader.nextByte = (.endOfInput, [])) ∨
      reader.bytes = reader.nextByte.1 :: reader.nextByte.2.bytes := by
  induction reader with
  | nil => exact .inl ⟨rfl, rfl⟩
  | cons event rest inductionHypothesis =>
      cases event with
      | delivered chunk =>
          cases chunk with
          | nil => exact inductionHypothesis
          | cons value chunk => exact .inr rfl
      | interrupted => exact inductionHypothesis
      | failure message => exact .inr rfl
      | endOfInput => exact .inr rfl

/-- A sequence that has been begun is read by requests for the bytes that it lacks. -/
theorem charactersFrom_some
    (sequence : List UInt8)
    (afterNext : Nat)
    (reader : Reader) :
    charactersFrom (some ⟨sequence, afterNext⟩) reader.bytes =
      (reader.nextSequence sequence (afterNext + 1)).1 ::
        (reader.nextSequence sequence (afterNext + 1)).2.characters := by
  induction afterNext generalizing sequence reader with
  | zero =>
      rcases reader.bytes_eq_or_cons with ⟨noBytes, ended⟩ | more
      · rw [noBytes, nextSequence, ended]
        rfl
      · rw [more, nextSequence]
        rcases reader.nextByte with ⟨_ | _ | _, rest⟩ <;> rfl
  | succ afterNext inductionHypothesis =>
      rcases reader.bytes_eq_or_cons with ⟨noBytes, ended⟩ | more
      · rw [noBytes, nextSequence, ended]
        rfl
      · rw [more, nextSequence]
        rcases reader.nextByte with ⟨value | _ | _, rest⟩
        · exact inductionHypothesis (sequence ++ [value]) rest
        · rfl
        · rfl

/-- The characters of a source are what one request after the other gives, until the
source has nothing left but the end of the input. -/
theorem characters_eq_or_cons (reader : Reader) :
    (reader.characters = [] ∧ reader.nextByte = (.endOfInput, [])) ∨
      reader.characters = reader.nextCharacter.1 :: reader.nextCharacter.2.characters := by
  rcases reader.bytes_eq_or_cons with ⟨noBytes, ended⟩ | more
  · refine .inl ⟨?_, ended⟩
    rw [characters, noBytes]
    rfl
  · refine .inr ?_
    rw [characters, more, nextCharacter]
    rcases reader.nextByte with ⟨lead | _ | _, rest⟩
    · cases announced : Utf8.following? lead with
      | none => simp [charactersFrom, announced, characters]
      | some lacking =>
          cases lacking with
          | zero => simp [charactersFrom, announced, nextSequence, characters]
          | succ afterNext =>
              simp only [charactersFrom, announced]
              exact charactersFrom_some [lead] afterNext rest
    · rfl
    · rfl

end Reader

/-- A scanner that has nothing but a source left asks it for one character: what is left
of the source is left to the scanner, and a failure is reported with the position of the
last character that was consumed. -/
theorem Scanner.read_characters
    (reader : Reader)
    (position : Position)
    (peeked : Option Char) :
    read ⟨reader.characters, position, peeked⟩ =
      let behind : Scanner := ⟨reader.nextCharacter.2.characters, position, peeked⟩
      match reader.nextCharacter.1 with
      | .char c => .ok (some c) behind
      | .endOfInput => .ok none behind
      | .failure message => .error (.readFailure position message) behind
      | .malformed => .error (.invalidUtf8 position) behind := by
  rcases reader.characters_eq_or_cons with ⟨none, ended⟩ | more
  · rw [none, Reader.nextCharacter, ended]
    rfl
  · rw [more]
    cases reader.nextCharacter.1 <;> rfl

end Covenant
