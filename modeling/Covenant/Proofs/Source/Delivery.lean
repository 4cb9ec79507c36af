import Covenant.Proofs.Source.Requests
import Covenant.Proofs.Source.Scanning

/-!
# What a source delivers

A source may deliver the same bytes in many ways: cut into pieces at any place, inside a
character or a token as well, and with interrupted reads anywhere in between.  Every
request takes its bytes from the front of what is delivered (`Gives`), so two sources
that deliver the same bytes give the same characters, except that one may report the end
of the input more often than the other.  No step of a scanner can tell how often that
will be (`Scanner.Insensitive`), and so the scanners of two such sources answer all
sequences of calls alike (`Scanner.session_eq_of_delivers`).
-/

namespace Covenant
namespace Reader

/-- A source delivers exactly some bytes and then reports nothing but the end of the
input, with interrupted reads anywhere. -/
inductive Delivers : Reader → List UInt8 → Prop
  | nil : Delivers [] []
  | delivered {rest : Reader} {bytes : List UInt8} (chunk : List UInt8) :
      Delivers rest bytes →
      Delivers (.delivered chunk :: rest) (chunk ++ bytes)
  | interrupted {rest : Reader} {bytes : List UInt8} :
      Delivers rest bytes →
      Delivers (.interrupted :: rest) bytes
  | endOfInput {rest : Reader} :
      Delivers rest [] →
      Delivers (.endOfInput :: rest) []

theorem delivers_ofText (source : String) : (ofText source).Delivers (Utf8.encode source) := by
  have delivers := Delivers.delivered (Utf8.encode source) .nil
  rwa [List.append_nil] at delivers

/-- A request for a byte takes the first one that is left, wherever the source is cut. -/
theorem Delivers.nextByte
    {reader : Reader}
    {bytes : List UInt8}
    (delivers : reader.Delivers bytes) :
    ∃ rest, reader.nextByte = (bytes.head?.elim .endOfInput .byte, rest) ∧
      rest.Delivers bytes.tail := by
  induction delivers with
  | nil => exact ⟨[], rfl, .nil⟩
  | delivered chunk delivers inductionHypothesis =>
      cases chunk with
      | nil => exact inductionHypothesis
      | cons value chunk => exact ⟨_, rfl, .delivered chunk delivers⟩
  | interrupted _ inductionHypothesis => exact inductionHypothesis
  | endOfInput delivers _ => exact ⟨_, rfl, delivers⟩

/-- From every source that delivers the given bytes a request reads the same, and the same
bytes are left. -/
def Gives
    (request : Reader → CharRead × Reader)
    (bytes : List UInt8)
    (read : CharRead)
    (left : List UInt8) :
    Prop :=
  ∀ ⦃reader : Reader⦄, reader.Delivers bytes →
    ∃ rest, request reader = (read, rest) ∧ rest.Delivers left

theorem exists_gives_nextSequence
    (sequence : List UInt8)
    (lacking : Nat)
    (bytes : List UInt8) :
    ∃ read left, Gives (nextSequence sequence lacking) bytes read left ∧
      left.length ≤ bytes.length := by
  induction lacking generalizing sequence bytes with
  | zero => exact ⟨_, bytes, fun reader delivers => ⟨reader, rfl, delivers⟩, Nat.le_refl _⟩
  | succ lacking inductionHypothesis =>
      cases bytes with
      | nil =>
          refine ⟨.malformed, [], fun reader delivers => ?_, Nat.le_refl _⟩
          obtain ⟨rest, ended, delivers⟩ := delivers.nextByte
          exact ⟨rest, by rw [nextSequence, ended]; rfl, delivers⟩
      | cons value bytes =>
          obtain ⟨read, left, gives, shorter⟩ :=
            inductionHypothesis (sequence ++ [value]) bytes
          refine ⟨read, left, fun reader delivers => ?_, Nat.le_succ_of_le shorter⟩
          obtain ⟨rest, taken, delivers⟩ := delivers.nextByte
          rw [nextSequence, taken]
          exact gives delivers

/-- A character is read from the bytes in front, whatever the pieces in which they come. -/
theorem exists_gives_nextCharacter
    (lead : UInt8)
    (bytes : List UInt8) :
    ∃ read left, Gives nextCharacter (lead :: bytes) read left ∧
      left.length ≤ bytes.length := by
  cases announced : Utf8.following? lead with
  | none =>
      refine ⟨.malformed, bytes, fun reader delivers => ?_, Nat.le_refl _⟩
      obtain ⟨rest, taken, delivers⟩ := delivers.nextByte
      refine ⟨rest, ?_, delivers⟩
      rw [nextCharacter, taken]
      simp [announced]
  | some lacking =>
      obtain ⟨read, left, gives, shorter⟩ := exists_gives_nextSequence [lead] lacking bytes
      refine ⟨read, left, fun reader delivers => ?_, shorter⟩
      obtain ⟨rest, taken, delivers⟩ := delivers.nextByte
      rw [nextCharacter, taken]
      simpa [announced] using gives delivers

theorem gives_nextCharacter_nil : Gives nextCharacter [] .endOfInput [] := by
  intro reader delivers
  obtain ⟨rest, ended, delivers⟩ := delivers.nextByte
  exact ⟨rest, by rw [nextCharacter, ended]; rfl, delivers⟩

/-- A source that delivers nothing more gives nothing but the end of the input. -/
theorem Delivers.eq_endOfInput_of_mem
    {reader : Reader}
    (delivers : reader.Delivers []) :
    ∀ read ∈ reader.characters, read = .endOfInput := by
  generalize same : reader.characters = reads
  induction reads generalizing reader with
  | nil => simp
  | cons first reads inductionHypothesis =>
      obtain ⟨rest, ended, delivers⟩ := gives_nextCharacter_nil delivers
      rcases reader.characters_eq_or_cons with ⟨none, _⟩ | more
      · simp [none] at same
      · rw [ended, same] at more
        obtain ⟨first, others⟩ := List.cons.inj more
        exact List.forall_mem_cons.mpr ⟨first, inductionHypothesis delivers others.symm⟩

end Reader

/-- Two sequences of reads give the same until nothing but the end of the input is left. -/
inductive SameReads : List CharRead → List CharRead → Prop
  | ended {reads reads' : List CharRead} :
      (∀ read ∈ reads, read = .endOfInput) →
      (∀ read ∈ reads', read = .endOfInput) →
      SameReads reads reads'
  | cons {rest rest' : List CharRead} (read : CharRead) :
      SameReads rest rest' →
      SameReads (read :: rest) (read :: rest')

/-- What a source gives depends only on the bytes that it delivers. -/
theorem Reader.Delivers.sameReads
    {bytes : List UInt8}
    {reader reader' : Reader}
    (delivers : reader.Delivers bytes)
    (delivers' : reader'.Delivers bytes) :
    SameReads reader.characters reader'.characters := by
  induction bytesLength : bytes.length using Nat.strongRecOn generalizing bytes reader reader' with
  | ind length inductionHypothesis =>
      cases bytes with
      | nil => exact .ended delivers.eq_endOfInput_of_mem delivers'.eq_endOfInput_of_mem
      | cons lead bytes =>
          obtain ⟨read, left, gives, shorter⟩ := exists_gives_nextCharacter lead bytes
          have step : ∀ {reader : Reader}, reader.Delivers (lead :: bytes) →
              ∃ rest, reader.characters = read :: Reader.characters rest ∧ rest.Delivers left := by
            intro reader delivers
            obtain ⟨rest, asked, delivers'⟩ := gives delivers
            obtain ⟨_, taken, _⟩ := delivers.nextByte
            rcases reader.characters_eq_or_cons with ⟨_, ended⟩ | more
            · simp [ended] at taken
            · rw [asked] at more
              exact ⟨rest, more, delivers'⟩
          obtain ⟨rest, more, delivers⟩ := step delivers
          obtain ⟨rest', more', delivers'⟩ := step delivers'
          rw [more, more']
          rw [List.length_cons] at bytesLength
          exact .cons read (inductionHypothesis left.length (by omega) delivers delivers' rfl)

namespace SameReads

theorem takeWhile_eq
    {reads reads' : List CharRead}
    (same : SameReads reads reads')
    (accept : Char → Bool) :
    reads.takeWhile (·.satisfies accept) = reads'.takeWhile (·.satisfies accept) := by
  induction same with
  | @ended reads reads' ends ends' =>
      have nothing : ∀ {reads : List CharRead}, (∀ read ∈ reads, read = .endOfInput) →
          reads.takeWhile (·.satisfies accept) = [] := by
        intro reads ends
        cases reads with
        | nil => rfl
        | cons read rest =>
            rw [ends read List.mem_cons_self]
            rfl
      rw [nothing ends, nothing ends']
  | cons read _ inductionHypothesis =>
      rw [List.takeWhile_cons, List.takeWhile_cons, inductionHypothesis]

theorem dropWhile
    {reads reads' : List CharRead}
    (same : SameReads reads reads')
    (accept : Char → Bool) :
    SameReads (reads.dropWhile (·.satisfies accept)) (reads'.dropWhile (·.satisfies accept)) := by
  induction same with
  | ended ends ends' =>
      refine .ended ?_ ?_
      · exact fun read listed => ends read ((List.dropWhile_sublist _).mem listed)
      · exact fun read listed => ends' read ((List.dropWhile_sublist _).mem listed)
  | @cons rest rest' read same inductionHypothesis =>
      rw [List.dropWhile_cons, List.dropWhile_cons]
      split
      · exact inductionHypothesis
      · exact .cons read same

end SameReads

namespace Scanner

/-- Two scanners differ at most in how often their sources will report the end of the
input. -/
structure Alike (scanner scanner' : Scanner) : Prop where
  position : scanner.position = scanner'.position
  peeked : scanner.peeked = scanner'.peeked
  reads : SameReads scanner.reads scanner'.reads

theorem Alike.pending
    {scanner scanner' : Scanner}
    (alike : Alike scanner scanner') :
    SameReads scanner.pending scanner'.pending := by
  unfold Scanner.pending
  rw [← alike.peeked]
  cases scanner.peeked with
  | none => exact alike.reads
  | some c => exact .cons (.char c) alike.reads

/-- A step has the same result twice, and leaves scanners that are alike. -/
inductive SameResult {α : Type} :
    EStateM.Result ScanError Scanner α → EStateM.Result ScanError Scanner α → Prop
  | ok (value : α) {after after' : Scanner} :
      Alike after after' →
      SameResult (.ok value after) (.ok value after')
  | error (error : ScanError) {after after' : Scanner} :
      Alike after after' →
      SameResult (.error error after) (.error error after')

/-- A step that cannot tell scanners apart that are alike. -/
def Insensitive {α : Type} (step : Scan α) : Prop :=
  ∀ ⦃scanner scanner' : Scanner⦄, Alike scanner scanner' →
    SameResult (step scanner) (step scanner')

namespace Insensitive

theorem bind
    {α β : Type}
    {step : Scan α}
    {next : α → Scan β}
    (first : Insensitive step)
    (second : ∀ value, Insensitive (next value)) :
    Insensitive (step >>= next) := by
  intro scanner scanner' alike
  have result := first alike
  simp only [Bind.bind, EStateM.bind]
  generalize step scanner = stepped at result ⊢
  generalize step scanner' = stepped' at result ⊢
  cases result with
  | ok value alike => exact second value alike
  | error error alike => exact .error error alike

theorem token (kind : TokenKind) (value : String) : Insensitive (token kind value) := by
  intro scanner scanner' alike
  unfold Scanner.token
  rw [alike.position]
  exact .ok _ alike

theorem takeWhile (accept : Char → Bool) : Insensitive (takeWhile accept) := by
  intro scanner scanner' alike
  simp only [Scanner.takeWhile, alike.position, alike.pending.takeWhile_eq accept]
  exact .ok _ ⟨rfl, rfl, alike.pending.dropWhile accept⟩

/-- At the end of the input there is no character. -/
theorem read_of_forall_endOfInput
    {scanner : Scanner}
    (ends : ∀ read ∈ scanner.reads, read = .endOfInput) :
    Scanner.read scanner = .ok none { scanner with reads := scanner.reads.tail } := by
  obtain ⟨reads, position, peeked⟩ := scanner
  cases reads with
  | nil => rfl
  | cons first rest =>
      obtain rfl := ends first List.mem_cons_self
      rfl

theorem read : Insensitive read := by
  intro scanner scanner' alike
  obtain ⟨reads, position, peeked⟩ := scanner
  obtain ⟨reads', position', peeked'⟩ := scanner'
  obtain ⟨rfl, rfl, same⟩ := alike
  cases same with
  | ended ends ends' =>
      rw [read_of_forall_endOfInput ends, read_of_forall_endOfInput ends']
      refine .ok none ⟨rfl, rfl, .ended ?_ ?_⟩
      · exact fun read listed => ends read (List.mem_of_mem_tail listed)
      · exact fun read listed => ends' read (List.mem_of_mem_tail listed)
  | cons read same =>
      have alike : ∀ {rest rest'}, SameReads rest rest' →
          Alike ⟨rest, position, peeked⟩ ⟨rest', position, peeked⟩ := fun same => ⟨rfl, rfl, same⟩
      cases read with
      | char c => exact .ok (some c) (alike same)
      | failure message => exact .error (.readFailure position message) (alike same)
      | malformed => exact .error (.invalidUtf8 position) (alike same)
      | endOfInput => exact .ok none (alike same)

theorem peek : Insensitive peek := by
  intro scanner scanner' alike
  have result := read alike
  unfold Scanner.peek
  rw [← alike.peeked]
  cases scanner.peeked with
  | some c => exact .ok (some c) alike
  | none =>
      generalize Scanner.read scanner = found at result ⊢
      generalize Scanner.read scanner' = found' at result ⊢
      cases result with
      | ok found alike => exact .ok found ⟨alike.position, rfl, alike.reads⟩
      | error error alike => exact .error error alike

theorem bump : Insensitive bump := by
  intro scanner scanner' alike
  have unpeeked : Alike ⟨scanner.pending, scanner.position, none⟩
      ⟨scanner'.pending, scanner'.position, none⟩ := ⟨alike.position, rfl, alike.pending⟩
  have result := read unpeeked
  unfold Scanner.bump
  generalize Scanner.read ⟨scanner.pending, scanner.position, none⟩ = found at result ⊢
  generalize Scanner.read ⟨scanner'.pending, scanner'.position, none⟩ = found' at result ⊢
  cases result with
  | ok found alike =>
      cases found with
      | none => exact .ok none alike
      | some c =>
          exact .ok (some c) ⟨congrArg (·.advance c) alike.position, alike.peeked, alike.reads⟩
  | error error alike => exact .error error alike

theorem tokenFrom (first : Char) : Insensitive (tokenFrom first) := by
  unfold Scanner.tokenFrom
  split
  · exact token _ _
  · split
    · refine (takeWhile _).bind fun inner => bump.bind fun quote => ?_
      cases quote <;> exact token _ _
    · split
      · refine (takeWhile _).bind fun digits => peek.bind fun next => ?_
        cases next <;> exact token _ _
      · split
        · exact (takeWhile _).bind fun letters => peek.bind fun _ => token _ _
        · exact token _ _

theorem scan : Insensitive scan := by
  refine (takeWhile isBlank).bind fun blanks => bump.bind fun first => ?_
  cases first with
  | some c => exact tokenFrom c
  | none => exact token .endOfInput ""

end Insensitive

/-- A call of a scanner. -/
inductive Call where
  /-- Asks for the next token. -/
  | scan
  /-- Asks for the position of the last character that was consumed. -/
  | position
deriving DecidableEq

/-- What a call of a scanner gives. -/
inductive Answer where
  | item (item : TokenStream.Item)
  | position (position : Position)

/-- What a call gives, and the scanner behind it. -/
def answer (scanner : Scanner) : Call → Answer × Scanner
  | .scan =>
    match scan scanner with
    | .ok token after => (.item (.ok token), after)
    | .error error after => (.item (.error error), after)
  | .position => (.position scanner.position, scanner)

/-- What some calls give, and then all items of the stream of the tokens that are left. -/
def session (scanner : Scanner) : List Call → List Answer × List TokenStream.Item
  | [] => ([], scanner.tokens.items)
  | call :: calls =>
    let (given, after) := scanner.answer call
    let (answers, items) := after.session calls
    (given :: answers, items)

/-- A call gives the same of scanners that are alike, and leaves scanners that are alike. -/
theorem Alike.answer
    {scanner scanner' : Scanner}
    (alike : Alike scanner scanner')
    (call : Call) :
    (scanner.answer call).1 = (scanner'.answer call).1 ∧
      Alike (scanner.answer call).2 (scanner'.answer call).2 := by
  cases call with
  | scan =>
      have result := Insensitive.scan alike
      unfold Scanner.answer
      generalize Scanner.scan scanner = scanned at result ⊢
      generalize Scanner.scan scanner' = scanned' at result ⊢
      cases result with
      | ok token alike => exact ⟨rfl, alike⟩
      | error error alike => exact ⟨rfl, alike⟩
  | position => exact ⟨congrArg Answer.position alike.position, alike⟩

/-- The items of a stream, one call after the other. -/
theorem items_tokens (scanner : Scanner) :
    scanner.tokens.items =
      match scan scanner with
      | .error error _ => [.error error]
      | .ok token after =>
        if token.kind = .endOfInput then [.ok token] else .ok token :: after.tokens.items := by
  unfold Scanner.tokens TokenStream.items
  cases scanned : scan scanner with
  | error error after => rw [TokenStream.drain_of_error scanned]
  | ok token after =>
      by_cases isEnd : token.kind = .endOfInput
      · rw [TokenStream.drain_of_end scanned isEnd]
        simp only [if_pos isEnd]
      · rw [TokenStream.drain_of_token scanned isEnd]
        simp only [if_neg isEnd]

/-- The streams of scanners that are alike have the same items. -/
theorem Alike.items_tokens_eq
    {scanner scanner' : Scanner}
    (alike : Alike scanner scanner') :
    scanner.tokens.items = scanner'.tokens.items := by
  induction left : scanner.pending.length using Nat.strongRecOn generalizing scanner scanner' with
  | ind length inductionHypothesis =>
      have result := Insensitive.scan alike
      rw [items_tokens, items_tokens]
      generalize scanned : Scanner.scan scanner = found at result ⊢
      generalize Scanner.scan scanner' = found' at result ⊢
      cases result with
      | error error _ => rfl
      | @ok token after after' alike =>
          by_cases isEnd : token.kind = .endOfInput
          · simp only [if_pos isEnd]
          · have shorter : after.pending.length < length :=
              left ▸ pending_lt_of_scan scanned isEnd
            simp only [if_neg isEnd, inductionHypothesis _ shorter alike rfl]

theorem Alike.session_eq
    {scanner scanner' : Scanner}
    (alike : Alike scanner scanner')
    (calls : List Call) :
    scanner.session calls = scanner'.session calls := by
  induction calls generalizing scanner scanner' with
  | nil => rw [session, session, alike.items_tokens_eq]
  | cons call calls inductionHypothesis =>
      obtain ⟨same, after⟩ := alike.answer call
      simp only [session, same, inductionHypothesis after]

theorem alike_ofReader
    {bytes : List UInt8}
    {reader reader' : Reader}
    (delivers : reader.Delivers bytes)
    (delivers' : reader'.Delivers bytes) :
    Alike (ofReader reader) (ofReader reader') :=
  ⟨rfl, rfl, delivers.sameReads delivers'⟩

/-- The scanners of two sources that deliver the same bytes, however these are cut and
however often reads are interrupted, answer every sequence of calls alike and have the
same items left behind it; and where the bytes are those of a text, the items are the
tokens of that text. -/
theorem session_eq_of_delivers
    {bytes : List UInt8}
    {reader reader' : Reader}
    (delivers : reader.Delivers bytes)
    (delivers' : reader'.Delivers bytes) :
    (∀ calls, (ofReader reader).session calls = (ofReader reader').session calls) ∧
      ∀ source, Utf8.encode source = bytes →
        ∃ tokens, tokenize source = .ok tokens ∧
          (ofReader reader).tokens.items = tokens.map .ok := by
  refine ⟨(alike_ofReader delivers delivers').session_eq, ?_⟩
  rintro source rfl
  obtain ⟨tokens, tiles⟩ := exists_tiles (.nil source.toList)
  refine ⟨tokens, tiles.tokenize_eq_ok, ?_⟩
  have ofText : (ofText source).tokens.items = tokens.map .ok :=
    TokenStream.items_of_tiles tiles (Reader.characters_ofText source) rfl
  have alike := alike_ofReader delivers (Reader.delivers_ofText source)
  exact alike.items_tokens_eq.trans ofText

/-- Three characters cut inside the first one, with interrupted reads. -/
def cutInsideCharacter : Reader :=
  [.interrupted, .delivered [0xC3], .interrupted, .interrupted, .delivered [0xA9, 0x31],
    .delivered [0x32], .endOfInput]

/-- The same characters cut behind the first one. -/
def cutBehindCharacter : Reader :=
  [.delivered [0xC3, 0xA9], .interrupted, .delivered [0x31, 0x32], .interrupted]

theorem session_cutInsideCharacter :
    cutInsideCharacter.Delivers [0xC3, 0xA9, 0x31, 0x32] ∧
      cutBehindCharacter.Delivers [0xC3, 0xA9, 0x31, 0x32] ∧
      (ofReader cutInsideCharacter).session [.scan, .position, .scan] =
        (ofReader cutBehindCharacter).session [.scan, .position, .scan] ∧
      ∃ tokens, tokenize "é12" = .ok tokens ∧
        (ofReader cutInsideCharacter).tokens.items = tokens.map .ok := by
  have inside : cutInsideCharacter.Delivers [0xC3, 0xA9, 0x31, 0x32] :=
    .interrupted (.delivered [0xC3] (.interrupted (.interrupted (.delivered [0xA9, 0x31]
      (.delivered [0x32] (.endOfInput .nil))))))
  have behind : cutBehindCharacter.Delivers [0xC3, 0xA9, 0x31, 0x32] :=
    .delivered [0xC3, 0xA9] (.interrupted (.delivered [0x31, 0x32] (.interrupted .nil)))
  obtain ⟨same, tokens⟩ := session_eq_of_delivers inside behind
  exact ⟨inside, behind, same _, tokens "é12" (by decide)⟩

end Scanner
end Covenant
