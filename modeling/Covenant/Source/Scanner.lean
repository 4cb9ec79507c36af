import Covenant.Source.Keyword
import Covenant.Source.Reader
import Covenant.Source.Token
import Covenant.Text.Alphabetic
import Covenant.Text.Blank
import Covenant.Text.Punctuation

/-!
# The scanner

A scanner cuts a source into tokens, one for each call of `scan`.  Text that it
cannot classify becomes an invalid token and scanning goes on behind it; only a
failing or malformed source stops a call, with a `ScanError` that says where the
scanner stood.  A scanner looks at most one character ahead, and only behind a
run of digits or a word.
-/

namespace Covenant

/-- Why a call of the scanner gave no token. -/
inductive ScanError where
  /-- The source failed, after the character at the position. -/
  | readFailure (position : Position) (message : String)
  /-- The source holds bytes that form no character there. -/
  | invalidUtf8 (position : Position)
deriving DecidableEq

/-- The wording of a scan error. -/
def ScanError.message : ScanError → String
  | readFailure position message => "read failed after " ++ position.text ++ ": " ++ message
  | invalidUtf8 position => "invalid UTF-8 sequence after " ++ position.text

/-- A scanner with its place in the source. -/
structure Scanner where
  /-- What further requests for a character will give. -/
  reads : List CharRead
  /-- The position of the last character that was consumed. -/
  position : Position := .start
  /-- A character that has been looked at and not consumed. -/
  peeked : Option Char := none
deriving DecidableEq

/-- A step of a scanner, which moves the scanner also when it fails. -/
abbrev Scan := EStateM ScanError Scanner

namespace Scanner

/-- A scanner at the beginning of a source. -/
def ofReader (reader : Reader) : Scanner :=
  ⟨reader.characters, .start, none⟩

/-- A scanner at the beginning of a text. -/
def ofText (text : String) : Scanner :=
  ofReader (.ofText text)

/-- What is still to be consumed, the peeked character first. -/
def pending (scanner : Scanner) : List CharRead :=
  match scanner.peeked with
  | some c => .char c :: scanner.reads
  | none => scanner.reads

@[simp] theorem pending_peeked (reads : List CharRead) (position : Position) (c : Char) :
    pending ⟨reads, position, some c⟩ = .char c :: reads := rfl

@[simp] theorem pending_unpeeked (reads : List CharRead) (position : Position) :
    pending ⟨reads, position, none⟩ = reads := rfl

/-- Asks the source for a character; `none` at the end of the input. -/
def read : Scan (Option Char) := fun scanner =>
  match scanner.reads with
  | [] => .ok none scanner
  | .endOfInput :: rest => .ok none { scanner with reads := rest }
  | .char c :: rest => .ok (some c) { scanner with reads := rest }
  | .failure message :: rest =>
    .error (.readFailure scanner.position message) { scanner with reads := rest }
  | .malformed :: rest =>
    .error (.invalidUtf8 scanner.position) { scanner with reads := rest }

/-- Looks at the next character without consuming it.  A character is kept for
the next call; the end of the input is not. -/
def peek : Scan (Option Char) := fun scanner =>
  match scanner.peeked with
  | some c => .ok (some c) scanner
  | none =>
    match read scanner with
    | .ok found scanner => .ok found { scanner with peeked := found }
    | .error error scanner => .error error scanner

/-- Consumes the next character; `none` at the end of the input. -/
def bump : Scan (Option Char) := fun scanner =>
  match read { scanner with reads := scanner.pending, peeked := none } with
  | .ok (some c) scanner => .ok (some c) { scanner with position := scanner.position.advance c }
  | .ok none scanner => .ok none scanner
  | .error error scanner => .error error scanner

/-- Consumes characters as long as the test accepts them, and gives them. -/
def takeWhile (accept : Char → Bool) : Scan String := fun scanner =>
  let taken := (scanner.pending.takeWhile (·.satisfies accept)).filterMap CharRead.char?
  .ok (String.ofList taken)
    ⟨scanner.pending.dropWhile (·.satisfies accept), scanner.position.advanceOver taken, none⟩

/-- The token of a text that has just been consumed. -/
def token (kind : TokenKind) (value : String) : Scan Token := fun scanner =>
  .ok ⟨kind, value, scanner.position⟩ scanner

/-- Whether a character directly behind a run of digits makes it invalid:
letters and punctuation marks do, structural characters among them. -/
def breaksInteger (c : Char) : Bool :=
  isLetter c || isPunctuation c

/-- The token that begins with a digit: all digits that follow, invalid if a
letter or a punctuation mark comes next.  That character is not consumed. -/
def integer (first : Char) : Scan Token := do
  let digits := first.toString ++ (← takeWhile Char.isDigit)
  match ← peek with
  | some c => token (if breaksInteger c then .invalid else .integer) digits
  | none => token .integer digits

/-- The token that begins with an alphabetic character: all alphabetic
characters that follow, invalid if they form no keyword. -/
def word (first : Char) : Scan Token := do
  let letters := first.toString ++ (← takeWhile isAlphabetic)
  let _ ← peek
  token (if isKeyword letters then .keyword else .invalid) letters

/-- The token that begins with a quote: everything through the next quote, or
through the end of the input if there is none.  There are no escapes. -/
def string : Scan Token := do
  let inner ← takeWhile (· != '"')
  match ← bump with
  | some quote => token .string ("\"" ++ inner ++ quote.toString)
  | none => token .string ("\"" ++ inner)

/-- The token that begins with a character other than a blank. -/
def tokenFrom (first : Char) : Scan Token :=
  match TokenKind.structural? first with
  | some kind => token kind first.toString
  | none =>
    if first = '"' then string
    else if first.isDigit then integer first
    else if isAlphabetic first then word first
    else token .invalid first.toString

/-- The next token, behind any blanks; at the end of the input an end token. -/
def scan : Scan Token := do
  let _ ← takeWhile isBlank
  match ← bump with
  | some first => tokenFrom first
  | none => token .endOfInput ""

end Scanner
end Covenant
