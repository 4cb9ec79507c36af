import Covenant.Proofs.Text.Classes
import Covenant.Proofs.Text.Runs
import Covenant.Source.Scanner

/-!
# What a call of the scanner does

Any reads may be pending when a scanner is called: characters, failures, malformed bytes
and reports of the end of the input in any order.  Every step has one law that says for
given reads which characters it consumes, what it gives or why it fails, and which reads
it leaves (`Scanner.Performs`).  A call consumes the blanks that come next and one portion
behind them (`Scanner.performs_scan`), and whatever is pending there is just such a
portion (`Scanner.exists_portion`).
-/

namespace Covenant

/-- Why a source gives no character although it does not end. -/
inductive SourceFault where
  /-- A read fails. -/
  | failure (message : String)
  /-- There are bytes that form no character. -/
  | malformed
deriving DecidableEq

namespace SourceFault

/-- What a request for a character gives. -/
def read : SourceFault → CharRead
  | failure message => .failure message
  | malformed => .malformed

/-- The error of a scanner at a position. -/
def error : SourceFault → Position → ScanError
  | failure message, position => .readFailure position message
  | malformed, position => .invalidUtf8 position

end SourceFault

/-- A source gives no character: it has ended, or it is at fault.  The reads behind the
one that shows it are left. -/
inductive Stops : List CharRead → Except SourceFault Unit → List CharRead → Prop
  | exhausted : Stops [] (.ok ()) []
  | ended (rest : List CharRead) : Stops (.endOfInput :: rest) (.ok ()) rest
  | failed (fault : SourceFault) (rest : List CharRead) :
      Stops (fault.read :: rest) (.error fault) rest

theorem Stops.satisfies_eq_false
    {pending left : List CharRead}
    {stop : Except SourceFault Unit}
    (stops : Stops pending stop left)
    (accept : Char → Bool) :
    ∀ read ∈ pending.head?, read.satisfies accept = false := by
  intro read isFirst
  cases stops with
  | exhausted => simp at isFirst
  | ended rest =>
      obtain rfl := Option.some.inj isFirst
      rfl
  | failed fault rest =>
      obtain rfl := Option.some.inj isFirst
      cases fault <;> rfl

theorem Stops.exists_eq_append
    {pending left : List CharRead}
    {stop : Except SourceFault Unit}
    (stops : Stops pending stop left) :
    ∃ gone, pending = gone ++ left ∧ gone.filterMap CharRead.char? = [] := by
  cases stops with
  | exhausted => exact ⟨[], rfl, rfl⟩
  | ended rest => exact ⟨[.endOfInput], rfl, rfl⟩
  | failed fault rest => exact ⟨[fault.read], rfl, by cases fault <;> rfl⟩

/-- Reads go on with a character, or they stop. -/
theorem char_or_stops (pending : List CharRead) :
    (∃ c rest, pending = .char c :: rest) ∨ ∃ stop left, Stops pending stop left := by
  cases pending with
  | nil => exact .inr ⟨_, _, .exhausted⟩
  | cons read rest =>
      cases read with
      | char c => exact .inl ⟨c, rest, rfl⟩
      | failure message => exact .inr ⟨_, _, .failed (.failure message) rest⟩
      | malformed => exact .inr ⟨_, _, .failed .malformed rest⟩
      | endOfInput => exact .inr ⟨_, _, .ended rest⟩

/-- In front of all reads there is a run of accepted characters, possibly an empty one. -/
theorem exists_run
    (accept : Char → Bool)
    (pending : List CharRead) :
    ∃ (run : List Char) (behind : List CharRead), pending = run.map .char ++ behind ∧
      (∀ c ∈ run, accept c = true) ∧
      ∀ read ∈ behind.head?, read.satisfies accept = false := by
  induction pending with
  | nil => exact ⟨[], [], rfl, by simp, by simp⟩
  | cons read rest inductionHypothesis =>
      by_cases accepted : read.satisfies accept = true
      · obtain ⟨run, behind, same, accepts, ends⟩ := inductionHypothesis
        cases read with
        | char c =>
            refine ⟨c :: run, behind, ?_, List.forall_mem_cons.mpr ⟨accepted, accepts⟩, ends⟩
            rw [same, List.map_cons, List.cons_append]
        | _ => contradiction
      · refine ⟨[], read :: rest, rfl, by simp, fun first isFirst => ?_⟩
        obtain rfl := Option.some.inj isFirst
        exact Bool.eq_false_iff.mpr accepted

/-- What looking ahead behind a run of accepted characters finds: a character that is not
accepted, which stays where it is, or no character. -/
inductive LooksAhead (accept : Char → Bool) :
    List CharRead → Except SourceFault (Option Char) → List CharRead → Prop
  | char {c : Char} {rest : List CharRead} :
      accept c = false →
      LooksAhead accept (.char c :: rest) (.ok (some c)) (.char c :: rest)
  | stops {behind left : List CharRead} {stop : Except SourceFault Unit} :
      Stops behind stop left →
      LooksAhead accept behind (stop.map fun _ => none) left

theorem LooksAhead.satisfies_eq_false
    {accept : Char → Bool}
    {behind left : List CharRead}
    {found : Except SourceFault (Option Char)}
    (looks : LooksAhead accept behind found left) :
    ∀ read ∈ behind.head?, read.satisfies accept = false := by
  cases looks with
  | char refused =>
      intro read isFirst
      obtain rfl := Option.some.inj isFirst
      exact refused
  | stops stops => exact stops.satisfies_eq_false accept

theorem LooksAhead.exists_eq_append
    {accept : Char → Bool}
    {behind left : List CharRead}
    {found : Except SourceFault (Option Char)}
    (looks : LooksAhead accept behind found left) :
    ∃ gone, behind = gone ++ left ∧ gone.filterMap CharRead.char? = [] := by
  cases looks with
  | char => exact ⟨[], rfl, rfl⟩
  | stops stops => exact stops.exists_eq_append

theorem exists_looksAhead
    {accept : Char → Bool}
    {behind : List CharRead}
    (ends : ∀ read ∈ behind.head?, read.satisfies accept = false) :
    ∃ found left, LooksAhead accept behind found left := by
  rcases char_or_stops behind with ⟨c, rest, rfl⟩ | ⟨stop, left, stops⟩
  · exact ⟨_, _, .char (ends _ rfl)⟩
  · exact ⟨_, _, .stops stops⟩

/-- A text that goes on as long as it is not closed by another character: digits,
alphabetic characters, or a quote without the second one. -/
inductive IsOpen : List Char → Prop
  | digits {run : List Char} :
      run ≠ [] →
      (∀ c ∈ run, c.isDigit = true) →
      IsOpen run
  | word {run : List Char} :
      run ≠ [] →
      (∀ c ∈ run, isAlphabetic c = true) →
      IsOpen run
  | string {inner : List Char} :
      '"' ∉ inner →
      IsOpen ('"' :: inner)

/-- What a call consumes behind the blanks, for the reads that are pending there: the text
of a token, or of as much of it as there is before the source is at fault.  The outcome is
the kind of the token, or the fault. -/
inductive Portion :
    List CharRead → List Char → List CharRead → Except SourceFault TokenKind → Prop
  | finish {pending left : List CharRead} {stop : Except SourceFault Unit} :
      Stops pending stop left →
      Portion pending [] left (stop.map fun _ => .endOfInput)
  | structural {c : Char} {kind : TokenKind} {left : List CharRead} :
      TokenKind.structural? c = some kind →
      Portion (.char c :: left) [c] left (.ok kind)
  | string {inner : List Char} {left : List CharRead} :
      '"' ∉ inner →
      Portion (('"' :: inner ++ ['"']).map .char ++ left) ('"' :: inner ++ ['"']) left
        (.ok .string)
  /-- No second quote comes before the source ends or is at fault. -/
  | unclosed
      {inner : List Char} {behind left : List CharRead} {stop : Except SourceFault Unit} :
      '"' ∉ inner →
      Stops behind stop left →
      Portion (('"' :: inner).map .char ++ behind) ('"' :: inner) left
        (stop.map fun _ => .string)
  | digits
      {first : Char} {others : List Char} {behind left : List CharRead}
      {found : Except SourceFault (Option Char)} :
      (∀ c ∈ first :: others, c.isDigit = true) →
      LooksAhead Char.isDigit behind found left →
      Portion ((first :: others).map .char ++ behind) (first :: others) left
        (found.map fun next => if next.any Scanner.breaksInteger then .invalid else .integer)
  | word
      {first : Char} {others : List Char} {behind left : List CharRead}
      {found : Except SourceFault (Option Char)} :
      (∀ c ∈ first :: others, isAlphabetic c = true) →
      LooksAhead isAlphabetic behind found left →
      Portion ((first :: others).map .char ++ behind) (first :: others) left
        (found.map fun _ =>
          if isKeyword (String.ofList (first :: others)) then .keyword else .invalid)
  | stray {c : Char} {left : List CharRead} :
      TokenKind.structural? c = none →
      c ≠ '"' →
      c.isDigit = false →
      isAlphabetic c = false →
      isBlank c = false →
      Portion (.char c :: left) [c] left (.ok .invalid)

namespace Scanner

/-- How a step ends that has an outcome and leaves a scanner. -/
def result
    {α : Type}
    (outcome : Except SourceFault (Position → α))
    (after : Scanner) :
    EStateM.Result ScanError Scanner α :=
  match outcome with
  | .ok value => .ok (value after.position) after
  | .error fault => .error (fault.error after.position) after

/-- Where the given reads are pending, a step consumes a text, leaves some of the reads
and has an outcome, in which the value may depend on the position behind the text. -/
def Performs
    {α : Type}
    (step : Scan α)
    (pending : List CharRead)
    (taken : List Char)
    (left : List CharRead)
    (outcome : Except SourceFault (Position → α)) :
    Prop :=
  ∀ ⦃scanner : Scanner⦄, scanner.pending = pending →
    ∃ after, step scanner = result outcome after ∧ after.pending = left ∧
      after.position = scanner.position.advanceOver taken

namespace Performs

variable {α β : Type} {pending left : List CharRead} {taken : List Char}

theorem bind
    {step : Scan α}
    {value : α}
    {following : α → Scan β}
    {middle : List CharRead}
    {further : List Char}
    {outcome : Except SourceFault (Position → β)}
    (first : Performs step pending taken middle (.ok fun _ => value))
    (second : Performs (following value) middle further left outcome) :
    Performs (step >>= following) pending (taken ++ further) left outcome := by
  intro scanner isPending
  obtain ⟨between, stepped, isMiddle, position⟩ := first isPending
  obtain ⟨after, followed, isLeft, position'⟩ := second isMiddle
  refine ⟨after, ?_, isLeft, ?_⟩
  · simp only [Bind.bind, EStateM.bind, stepped, result]
    exact followed
  · rw [position', position, Position.advanceOver_append]

/-- What follows may consume nothing more. -/
theorem andThen
    {step : Scan α}
    {value : α}
    {following : α → Scan β}
    {middle : List CharRead}
    {outcome : Except SourceFault (Position → β)}
    (first : Performs step pending taken middle (.ok fun _ => value))
    (second : Performs (following value) middle [] left outcome) :
    Performs (step >>= following) pending taken left outcome := by
  rw [← List.append_nil taken]
  exact bind first second

theorem token
    (kind : TokenKind)
    (value : String)
    (pending : List CharRead) :
    Performs (token kind value) pending [] pending (.ok fun position => ⟨kind, value, position⟩) :=
  fun scanner isPending => ⟨scanner, rfl, isPending, rfl⟩

/-- Nothing follows a step that fails. -/
theorem bind_of_error
    {step : Scan α}
    {fault : SourceFault}
    (failed : Performs step pending taken left (.error fault))
    (following : α → Scan β) :
    Performs (step >>= following) pending taken left (.error fault) := by
  intro scanner isPending
  obtain ⟨after, stepped, isLeft, position⟩ := failed isPending
  refine ⟨after, ?_, isLeft, position⟩
  simp only [Bind.bind, EStateM.bind, stepped, result]

/-- Behind a step that may fail, a token is given. -/
theorem bind_token
    {step : Scan α}
    {found : Except SourceFault α}
    (first : Performs step pending taken left (found.map fun value _ => value))
    {following : α → Scan Token}
    {kind : α → TokenKind}
    {text : String}
    (gives : ∀ value, following value = Scanner.token (kind value) text) :
    Performs (step >>= following) pending taken left
      (found.map fun value position => ⟨kind value, text, position⟩) := by
  cases found with
  | error fault => exact first.bind_of_error following
  | ok value => exact first.andThen (gives value ▸ token (kind value) text left)

theorem takeWhile
    {accept : Char → Bool}
    {run : List Char}
    {behind : List CharRead}
    (accepted : ∀ c ∈ run, accept c = true)
    (ends : ∀ read ∈ behind.head?, read.satisfies accept = false) :
    Performs (takeWhile accept) (run.map .char ++ behind) run behind
      (.ok fun _ => String.ofList run) := by
  intro scanner isPending
  have satisfied : ∀ read ∈ run.map CharRead.char, read.satisfies accept = true :=
    List.forall_mem_map.mpr accepted
  have characters : CharRead.char? ∘ CharRead.char = some := rfl
  refine ⟨⟨behind, scanner.position.advanceOver run, none⟩, ?_, rfl, rfl⟩
  simp only [Scanner.takeWhile, result, isPending, takeWhile_append_of_ends satisfied ends,
    dropWhile_append_of_ends satisfied ends, List.filterMap_map, characters, List.filterMap_some]

theorem bump_char
    (c : Char)
    (rest : List CharRead) :
    Performs bump (.char c :: rest) [c] rest (.ok fun _ => some c) := by
  intro scanner isPending
  refine ⟨⟨rest, scanner.position.advance c, none⟩, ?_, rfl, rfl⟩
  simp [bump, read, result, isPending]

theorem bump_stops
    {stop : Except SourceFault Unit}
    (stops : Stops pending stop left) :
    Performs bump pending [] left (stop.map fun _ _ => none) := by
  intro scanner isPending
  refine ⟨⟨left, scanner.position, none⟩, ?_, rfl, rfl⟩
  cases stops with
  | exhausted => simp [bump, read, result, isPending, Except.map]
  | ended rest => simp [bump, read, result, isPending, Except.map]
  | failed fault rest =>
      cases fault <;>
        simp [bump, read, result, isPending, Except.map, SourceFault.read, SourceFault.error]

/-- Where the source stops, a token is given if it has ended. -/
theorem bump_stops_bind_token
    {stop : Except SourceFault Unit}
    (stops : Stops pending stop left)
    {following : Option Char → Scan Token}
    {kind : TokenKind}
    {text : String}
    (gives : following none = Scanner.token kind text) :
    Performs (bump >>= following) pending [] left
      (stop.map fun _ position => ⟨kind, text, position⟩) := by
  have stopped := bump_stops stops
  cases stop with
  | error fault => exact stopped.bind_of_error following
  | ok _ => exact stopped.andThen (gives ▸ token kind text left)

/-- Looking ahead consumes nothing. -/
theorem peek
    {accept : Char → Bool}
    {behind : List CharRead}
    {found : Except SourceFault (Option Char)}
    (looks : LooksAhead accept behind found left) :
    Performs peek behind [] left (found.map fun next _ => next) := by
  intro scanner isPending
  obtain ⟨reads, position, peeked⟩ := scanner
  cases peeked with
  | some c =>
      cases looks with
      | char refused =>
          obtain ⟨rfl, rfl⟩ : c = _ ∧ reads = _ := by simpa using isPending
          exact ⟨_, rfl, rfl, rfl⟩
      | stops stops =>
          have noChar := stops.satisfies_eq_false (fun _ => true)
          rw [← isPending] at noChar
          simpa using noChar (.char c) rfl
  | none =>
      obtain rfl : reads = behind := isPending
      cases looks with
      | char refused => exact ⟨_, rfl, rfl, rfl⟩
      | stops stops =>
          cases stops with
          | exhausted => exact ⟨_, rfl, rfl, rfl⟩
          | ended rest => exact ⟨_, rfl, rfl, rfl⟩
          | failed fault rest => cases fault <;> exact ⟨⟨left, position, none⟩, rfl, rfl, rfl⟩

theorem satisfies_ne_quote
    {inner : List Char}
    (noQuote : '"' ∉ inner) :
    ∀ c ∈ inner, (c != '"') = true := by
  intro c listed
  exact bne_iff_ne.mpr fun quote => noQuote (quote ▸ listed)

theorem string
    {inner : List Char}
    (noQuote : '"' ∉ inner)
    (left : List CharRead) :
    Performs string ((inner ++ ['"']).map .char ++ left) (inner ++ ['"']) left
      (.ok fun position => ⟨.string, String.ofList ('"' :: inner ++ ['"']), position⟩) := by
  have text : String.ofList ('"' :: inner ++ ['"']) =
      "\"" ++ String.ofList inner ++ '"'.toString := by
    rw [← String.toList_inj]
    simp
  have ends : ∀ read ∈ (CharRead.char '"' :: left).head?,
      read.satisfies (· != '"') = false := by
    intro read isFirst
    obtain rfl := Option.some.inj isFirst
    decide
  rw [text, List.map_append, List.append_assoc]
  apply (takeWhile (satisfies_ne_quote noQuote) ends).bind
  exact (bump_char '"' left).andThen (token _ _ left)

theorem string_unclosed
    {inner : List Char}
    (noQuote : '"' ∉ inner)
    {behind : List CharRead}
    {stop : Except SourceFault Unit}
    (stops : Stops behind stop left) :
    Performs Scanner.string (inner.map .char ++ behind) inner left
      (stop.map fun _ position => ⟨.string, String.ofList ('"' :: inner), position⟩) := by
  have text : String.ofList ('"' :: inner) = "\"" ++ String.ofList inner := String.ofList_cons
  rw [text]
  apply (takeWhile (satisfies_ne_quote noQuote) (stops.satisfies_eq_false _)).andThen
  exact bump_stops_bind_token stops rfl

theorem integer
    {first : Char}
    {others : List Char}
    (accepted : ∀ c ∈ others, c.isDigit = true)
    {behind : List CharRead}
    {found : Except SourceFault (Option Char)}
    (looks : LooksAhead Char.isDigit behind found left) :
    Performs (integer first) (others.map .char ++ behind) others left
      (found.map fun next position =>
        ⟨if next.any breaksInteger then .invalid else .integer,
          String.ofList (first :: others), position⟩) := by
  have text : String.ofList (first :: others) = first.toString ++ String.ofList others :=
    String.ofList_cons
  rw [text]
  apply (takeWhile accepted looks.satisfies_eq_false).andThen
  apply (peek looks).bind_token
  intro next
  cases next <;> rfl

theorem word
    {first : Char}
    {others : List Char}
    (accepted : ∀ c ∈ others, isAlphabetic c = true)
    {behind : List CharRead}
    {found : Except SourceFault (Option Char)}
    (looks : LooksAhead isAlphabetic behind found left) :
    Performs (word first) (others.map .char ++ behind) others left
      (found.map fun _ position =>
        ⟨if isKeyword (String.ofList (first :: others)) then .keyword else .invalid,
          String.ofList (first :: others), position⟩) := by
  have text : String.ofList (first :: others) = first.toString ++ String.ofList others :=
    String.ofList_cons
  rw [text]
  apply (takeWhile accepted looks.satisfies_eq_false).andThen
  exact (peek looks).bind_token fun _ => rfl

end Performs
theorem tokenFrom_of_not_mem_marks
    {first : Char}
    (noMark : CharSet.marks.contains first = false) :
    tokenFrom first =
      if first.isDigit then integer first
      else if isAlphabetic first then word first
      else token .invalid first.toString := by
  rw [tokenFrom, TokenKind.structural?_eq_none noMark]
  exact if_neg (ne_quote_of_not_mem_marks noMark)

theorem tokenFrom_of_isDigit
    {first : Char}
    (digit : first.isDigit = true) :
    tokenFrom first = integer first := by
  have noMark : CharSet.marks.contains first = false := by
    apply Bool.eq_false_iff.mpr
    intro mark
    rw [isDigit_eq_false_of_mem_marks mark] at digit
    contradiction
  rw [tokenFrom_of_not_mem_marks noMark, if_pos digit]

theorem tokenFrom_of_isAlphabetic
    {first : Char}
    (alphabetic : isAlphabetic first = true) :
    tokenFrom first = word first := by
  have noMark : CharSet.marks.contains first = false := by
    apply Bool.eq_false_iff.mpr
    intro mark
    rw [isAlphabetic_eq_false_of_mem_marks mark] at alphabetic
    contradiction
  have noDigit : ¬first.isDigit = true :=
    Bool.eq_false_iff.mp (isDigit_eq_false_of_isAlphabetic alphabetic)
  rw [tokenFrom_of_not_mem_marks noMark, if_neg noDigit, if_pos alphabetic]

/-- Behind its first character, what is left of a portion is consumed. -/
theorem performs_tokenFrom
    {first : Char}
    {others : List Char}
    {pending left : List CharRead}
    {outcome : Except SourceFault TokenKind}
    (portion : Portion (.char first :: pending) (first :: others) left outcome) :
    Performs (tokenFrom first) pending others left
      (outcome.map fun kind position => ⟨kind, String.ofList (first :: others), position⟩) := by
  generalize isPending : CharRead.char first :: pending = reads at portion
  generalize isText : first :: others = text at portion
  cases portion with
  | finish stops => cases isText
  | structural found =>
      obtain ⟨rfl, rfl⟩ := List.cons.inj isText
      obtain ⟨-, rfl⟩ := List.cons.inj isPending
      rw [tokenFrom, found]
      exact .token _ _ _
  | string noQuote =>
      obtain ⟨rfl, rfl⟩ := List.cons.inj isText
      obtain ⟨-, rfl⟩ := List.cons.inj isPending
      exact .string noQuote _
  | @unclosed _ _ _ stop noQuote stops =>
      obtain ⟨rfl, rfl⟩ := List.cons.inj isText
      obtain ⟨-, rfl⟩ := List.cons.inj isPending
      have consumed := Performs.string_unclosed noQuote stops
      cases stop <;> exact consumed
  | @digits _ _ _ _ found accepted looks =>
      obtain ⟨rfl, rfl⟩ := List.cons.inj isText
      obtain ⟨-, rfl⟩ := List.cons.inj isPending
      obtain ⟨digit, accepted⟩ := List.forall_mem_cons.mp accepted
      rw [tokenFrom_of_isDigit digit]
      have consumed : Performs (integer first) _ _ _ _ := .integer accepted looks
      cases found <;> exact consumed
  | @word _ _ _ _ found accepted looks =>
      obtain ⟨rfl, rfl⟩ := List.cons.inj isText
      obtain ⟨-, rfl⟩ := List.cons.inj isPending
      obtain ⟨alphabetic, accepted⟩ := List.forall_mem_cons.mp accepted
      rw [tokenFrom_of_isAlphabetic alphabetic]
      have consumed : Performs (word first) _ _ _ _ := .word accepted looks
      cases found <;> exact consumed
  | stray noStructure noQuote noDigit notAlphabetic _ =>
      obtain ⟨rfl, rfl⟩ := List.cons.inj isText
      obtain ⟨-, rfl⟩ := List.cons.inj isPending
      rw [tokenFrom, noStructure]
      simp only [noQuote, noDigit, notAlphabetic, if_false, Bool.false_eq_true]
      exact .token _ _ _

end Scanner

namespace Portion

variable {pending left : List CharRead} {text : List Char} {outcome : Except SourceFault TokenKind}

/-- The reads in front of a portion are the characters of its text, and the reads that are
left come behind them.  Between the two at most the read is missing that shows where the
source stops. -/
theorem exists_eq_append
    (portion : Portion pending text left outcome) :
    ∃ gone, pending = text.map .char ++ gone ++ left ∧ gone.filterMap CharRead.char? = [] := by
  cases portion with
  | finish stops => simpa using stops.exists_eq_append
  | structural => exact ⟨[], rfl, rfl⟩
  | string => exact ⟨[], by simp, rfl⟩
  | unclosed _ stops =>
      obtain ⟨gone, rfl, noChar⟩ := stops.exists_eq_append
      exact ⟨gone, (List.append_assoc ..).symm, noChar⟩
  | digits _ looks =>
      obtain ⟨gone, rfl, noChar⟩ := looks.exists_eq_append
      exact ⟨gone, (List.append_assoc ..).symm, noChar⟩
  | word _ looks =>
      obtain ⟨gone, rfl, noChar⟩ := looks.exists_eq_append
      exact ⟨gone, (List.append_assoc ..).symm, noChar⟩
  | stray => exact ⟨[], rfl, rfl⟩

/-- What is consumed before a fault is the beginning of a token, if it is anything. -/
theorem isOpen_of_error
    {fault : SourceFault}
    (portion : Portion pending text left (.error fault)) :
    text = [] ∨ IsOpen text := by
  generalize isError : Except.error fault = outcome at portion
  cases portion with
  | finish => exact .inl rfl
  | unclosed noQuote => exact .inr (.string noQuote)
  | digits accepted => exact .inr (.digits (List.cons_ne_nil _ _) accepted)
  | word accepted => exact .inr (.word (List.cons_ne_nil _ _) accepted)
  | _ => cases isError

/-- A portion does not begin with a blank. -/
theorem satisfies_isBlank_eq_false
    (portion : Portion pending text left outcome) :
    ∀ read ∈ pending.head?, read.satisfies isBlank = false := by
  intro read isFirst
  cases portion with
  | finish stops => exact stops.satisfies_eq_false isBlank read isFirst
  | structural found =>
      obtain rfl := Option.some.inj isFirst
      exact isBlank_eq_false_of_mem_marks (TokenKind.mem_marks_of_structural? found)
  | string =>
      obtain rfl := Option.some.inj isFirst
      decide
  | unclosed =>
      obtain rfl := Option.some.inj isFirst
      decide
  | digits accepted =>
      obtain rfl := Option.some.inj isFirst
      exact isBlank_eq_false_of_isDigit (accepted _ List.mem_cons_self)
  | word accepted =>
      obtain rfl := Option.some.inj isFirst
      exact isBlank_eq_false_of_isAlphabetic (accepted _ List.mem_cons_self)
  | stray _ _ _ _ noBlank =>
      obtain rfl := Option.some.inj isFirst
      exact noBlank

end Portion

namespace Scanner

/-- A call consumes the blanks that come next and the portion behind them. -/
theorem performs_scan
    {blanks text : List Char}
    {pending left : List CharRead}
    {outcome : Except SourceFault TokenKind}
    (blank : ∀ c ∈ blanks, isBlank c = true)
    (portion : Portion pending text left outcome) :
    Performs scan (blanks.map .char ++ pending) (blanks ++ text) left
      (outcome.map fun kind position => ⟨kind, String.ofList text, position⟩) := by
  apply (Performs.takeWhile blank portion.satisfies_isBlank_eq_false).bind
  cases text with
  | nil =>
      cases portion with
      | @finish _ _ stop stops =>
          cases stop <;> exact Performs.bump_stops_bind_token stops rfl
  | cons first others =>
      obtain ⟨gone, rfl, _⟩ := portion.exists_eq_append
      exact (Performs.bump_char first _).bind (performs_tokenFrom portion)

/-- Some portion begins with a given character that is no blank. -/
theorem exists_portion_of_char
    {first : Char}
    (noBlank : isBlank first = false)
    (rest : List CharRead) :
    ∃ text left outcome, Portion (.char first :: rest) text left outcome := by
  cases found : TokenKind.structural? first with
  | some kind => exact ⟨_, _, _, .structural found⟩
  | none =>
      by_cases quote : first = '"'
      · subst quote
        obtain ⟨inner, behind, rfl, accepted, ends⟩ := exists_run (· != '"') rest
        have noQuote : '"' ∉ inner := fun listed => by simpa using accepted _ listed
        rcases char_or_stops behind with ⟨second, left, rfl⟩ | ⟨stop, left, stops⟩
        · obtain rfl : second = '"' := by simpa using ends _ rfl
          have closed : Portion (('"' :: inner ++ ['"']).map .char ++ left) _ left _ :=
            .string noQuote
          rw [List.map_append, List.append_assoc] at closed
          exact ⟨_, _, _, closed⟩
        · exact ⟨_, _, _, .unclosed noQuote stops⟩
      · by_cases digit : first.isDigit = true
        · obtain ⟨others, behind, rfl, accepted, ends⟩ := exists_run Char.isDigit rest
          obtain ⟨found, left, looks⟩ := exists_looksAhead ends
          exact ⟨_, _, _, .digits (List.forall_mem_cons.mpr ⟨digit, accepted⟩) looks⟩
        · by_cases alphabetic : isAlphabetic first = true
          · obtain ⟨others, behind, rfl, accepted, ends⟩ := exists_run isAlphabetic rest
            obtain ⟨found, left, looks⟩ := exists_looksAhead ends
            exact ⟨_, _, _, .word (List.forall_mem_cons.mpr ⟨alphabetic, accepted⟩) looks⟩
          · exact ⟨_, _, _, .stray found quote (Bool.eq_false_iff.mpr digit)
              (Bool.eq_false_iff.mpr alphabetic) noBlank⟩

/-- Whatever is pending, some portion comes behind the blanks. -/
theorem exists_portion (pending : List CharRead) :
    ∃ (blanks : List Char) (behind : List CharRead) (text : List Char) (left : List CharRead)
      (outcome : Except SourceFault TokenKind),
      pending = blanks.map .char ++ behind ∧ (∀ c ∈ blanks, isBlank c = true) ∧
        Portion behind text left outcome := by
  obtain ⟨blanks, behind, same, blank, ends⟩ := exists_run isBlank pending
  rcases char_or_stops behind with ⟨first, rest, rfl⟩ | ⟨stop, left, stops⟩
  · obtain ⟨text, left, outcome, portion⟩ := exists_portion_of_char (ends _ rfl) rest
    exact ⟨blanks, _, text, left, outcome, same, blank, portion⟩
  · exact ⟨blanks, behind, [], left, _, same, blank, .finish stops⟩

end Scanner
end Covenant
