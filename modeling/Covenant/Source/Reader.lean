import Covenant.Text.Utf8

/-!
# Reading a source byte by byte

A source arrives in pieces: a read delivers some bytes, is interrupted, fails,
or reports the end of the input.  A `Reader` lists what its reads will give.
`Reader.bytes` is the same seen one byte at a time, where neither the cuts
between the pieces nor interrupted reads show, and `Reader.characters` is what
asking for one character after the other gives.
-/

namespace Covenant

/-- What one read of a source gives. -/
inductive ReadEvent where
  /-- Some bytes.  An empty chunk stands for no read at all: a read that finds nothing
  more is `endOfInput`. -/
  | delivered (chunk : List UInt8)
  /-- Nothing: the read was interrupted and is repeated. -/
  | interrupted
  /-- An error with its message. -/
  | failure (message : String)
  /-- A report that the input has ended. -/
  | endOfInput
deriving DecidableEq

/-- A source, as the list of what its reads give.  After them the input has
ended for good. -/
abbrev Reader := List ReadEvent

/-- What asking a source for one byte gives. -/
inductive ByteRead where
  | byte (value : UInt8)
  | failure (message : String)
  | endOfInput
deriving DecidableEq

/-- What asking a source for one character gives. -/
inductive CharRead where
  | char (value : Char)
  | failure (message : String)
  /-- Bytes that form no character. -/
  | malformed
  | endOfInput
deriving DecidableEq

namespace CharRead

/-- The character that was read, if one was. -/
def char? : CharRead → Option Char
  | char value => some value
  | _ => none

/-- What reading a complete sequence of bytes gives. -/
def ofSequence (sequence : List UInt8) : CharRead :=
  match Utf8.char? sequence with
  | some value => char value
  | none => malformed

/-- Whether a character was read that the test accepts. -/
def satisfies (accept : Char → Bool) : CharRead → Bool
  | char value => accept value
  | _ => false

@[simp] theorem char?_char (value : Char) : (char value).char? = some value := rfl

@[simp] theorem satisfies_char (accept : Char → Bool) (value : Char) :
    (char value).satisfies accept = accept value := rfl

end CharRead

/-- A sequence of bytes that has been begun and is not complete. -/
structure PartialSequence where
  /-- The bytes so far, in the order in which they arrived. -/
  bytes : List UInt8
  /-- How many bytes have to follow after the next one. -/
  afterNext : Nat

namespace Reader

/-- What asking for one byte after the other gives. -/
def bytes (reader : Reader) : List ByteRead :=
  reader.flatMap fun
    | .delivered chunk => chunk.map .byte
    | .interrupted => []
    | .failure message => [.failure message]
    | .endOfInput => [.endOfInput]

@[simp] theorem bytes_nil : bytes [] = [] := rfl

@[simp] theorem bytes_delivered (chunk : List UInt8) (rest : Reader) :
    bytes (.delivered chunk :: rest) = chunk.map .byte ++ bytes rest := rfl

@[simp] theorem bytes_interrupted (rest : Reader) :
    bytes (.interrupted :: rest) = bytes rest := rfl

@[simp] theorem bytes_failure (message : String) (rest : Reader) :
    bytes (.failure message :: rest) = .failure message :: bytes rest := rfl

@[simp] theorem bytes_endOfInput (rest : Reader) :
    bytes (.endOfInput :: rest) = .endOfInput :: bytes rest := rfl

/-- What asking for one character after the other gives, when the given sequence
has been begun.  The bytes that a lead byte announces are taken together,
whatever they are; a failure or the end of the input cuts the sequence short. -/
def charactersFrom : Option PartialSequence → List ByteRead → List CharRead
  | none, [] => []
  | some _, [] => [.malformed]
  | none, .byte value :: rest =>
    match Utf8.following? value with
    | none => .malformed :: charactersFrom none rest
    | some 0 => .ofSequence [value] :: charactersFrom none rest
    | some (afterNext + 1) => charactersFrom (some ⟨[value], afterNext⟩) rest
  | some begun, .byte value :: rest =>
    match begun.afterNext with
    | 0 => .ofSequence (begun.bytes ++ [value]) :: charactersFrom none rest
    | afterNext + 1 => charactersFrom (some ⟨begun.bytes ++ [value], afterNext⟩) rest
  | _, .failure message :: rest => .failure message :: charactersFrom none rest
  | none, .endOfInput :: rest => .endOfInput :: charactersFrom none rest
  | some _, .endOfInput :: rest => .malformed :: charactersFrom none rest

/-- What asking for one character after the other gives; once the list is
exhausted every further request finds the end of the input. -/
def characters (reader : Reader) : List CharRead :=
  charactersFrom none reader.bytes

/-- The source that delivers a text at once. -/
def ofText (text : String) : Reader :=
  [.delivered (Utf8.encode text)]

end Reader
end Covenant
