import Covenant.Proofs.Source.Calls
import Covenant.Source.TokenStream
import Mathlib.Data.List.Forall2

/-!
# Keeping account of characters

However often a scanner is called, and whatever its source gives in between, every
character that was read is accounted for once: it was consumed by one of the calls, or it
is the one that has been looked at.  What a call consumes is skipped blanks and then the
text of its token, or the beginning of a token that a fault of the source cut off.
-/

namespace Covenant

/-- What comes next is a run of digits or a word, or neither a digit nor a letter. -/
theorem Portion.isRun_or
    {pending left : List CharRead}
    {text : List Char}
    {outcome : Except SourceFault TokenKind}
    (portion : Portion pending text left outcome) :
    (text ≠ [] ∧ ((∀ c ∈ text, c.isDigit = true) ∨ ∀ c ∈ text, isAlphabetic c = true)) ∨
      ∀ c rest, pending = .char c :: rest → c.isDigit = false ∧ isAlphabetic c = false := by
  have quote : '"'.isDigit = false ∧ isAlphabetic '"' = false :=
    ⟨by decide, isAlphabetic_eq_false_of_mem_marks (by decide)⟩
  cases portion with
  | finish stops =>
      refine .inr fun c rest same => ?_
      have noChar := stops.satisfies_eq_false (fun _ => true)
      rw [same] at noChar
      simpa using noChar (.char c) rfl
  | structural found =>
      have mark := TokenKind.mem_marks_of_structural? found
      refine .inr fun c rest same => ?_
      cases same
      exact ⟨isDigit_eq_false_of_mem_marks mark, isAlphabetic_eq_false_of_mem_marks mark⟩
  | string =>
      refine .inr fun c rest same => ?_
      cases same
      exact quote
  | unclosed =>
      refine .inr fun c rest same => ?_
      cases same
      exact quote
  | digits accepted => exact .inl ⟨List.cons_ne_nil _ _, .inl accepted⟩
  | word accepted => exact .inl ⟨List.cons_ne_nil _ _, .inr accepted⟩
  | stray _ _ noDigit notAlphabetic _ =>
      refine .inr fun c rest same => ?_
      cases same
      exact ⟨noDigit, notAlphabetic⟩

namespace Scanner

/-- What a call gives, and the scanner behind it. -/
def call (scanner : Scanner) : TokenStream.Item × Scanner :=
  match scan scanner with
  | .ok token after => (.ok token, after)
  | .error error after => (.error error, after)

/-- What some number of calls give one after the other, and the scanner behind them. -/
def calls (scanner : Scanner) : Nat → List TokenStream.Item × Scanner
  | 0 => ([], scanner)
  | n + 1 =>
    let (items, between) := scanner.calls n
    let (item, after) := between.call
    (items ++ [item], after)

/-- The characters that a call consumes, by what it gives. -/
inductive Accounts : TokenStream.Item → List Char → Prop
  /-- Blanks are skipped in front of a token. -/
  | token {token : Token} {blanks : List Char} :
      (∀ c ∈ blanks, isBlank c = true) →
      Accounts (.ok token) (blanks ++ token.value.toList)
  /-- A token that has been begun is abandoned. -/
  | error {error : ScanError} {blanks begun : List Char} :
      (∀ c ∈ blanks, isBlank c = true) →
      (begun = [] ∨ IsOpen begun) →
      Accounts (.error error) (blanks ++ begun)

/-- A token is a run of digits or a word. -/
def IsRunToken (token : Token) : Prop :=
  token.value.toList ≠ [] ∧
    ((∀ c ∈ token.value.toList, c.isDigit = true) ∨
      ∀ c ∈ token.value.toList, isAlphabetic c = true)

/-- A step that does not look ahead. -/
def KeepsUnpeeked {α : Type} (step : Scan α) : Prop :=
  ∀ ⦃scanner : Scanner⦄ ⦃value : α⦄ ⦃after : Scanner⦄,
    scanner.peeked = none → step scanner = .ok value after → after.peeked = none

theorem peeked_eq_none_of_takeWhile
    {accept : Char → Bool}
    {scanner after : Scanner}
    {taken : String}
    (stepped : takeWhile accept scanner = .ok taken after) :
    after.peeked = none := by
  simp only [takeWhile, EStateM.Result.ok.injEq] at stepped
  rw [← stepped.2]

namespace KeepsUnpeeked

theorem bind
    {α β : Type}
    {step : Scan α}
    {next : α → Scan β}
    (first : KeepsUnpeeked step)
    (second : ∀ value, KeepsUnpeeked (next value)) :
    KeepsUnpeeked (step >>= next) := by
  intro scanner value after unpeeked stepped
  simp only [Bind.bind, EStateM.bind] at stepped
  split at stepped
  · rename_i middle between stepped'
    exact second middle (first unpeeked stepped') stepped
  · contradiction

theorem token (kind : TokenKind) (value : String) : KeepsUnpeeked (token kind value) := by
  intro scanner token after unpeeked stepped
  cases stepped
  exact unpeeked

theorem takeWhile (accept : Char → Bool) : KeepsUnpeeked (takeWhile accept) := by
  intro scanner taken after _ stepped
  exact peeked_eq_none_of_takeWhile stepped

theorem bump : KeepsUnpeeked bump := by
  intro scanner found after _ stepped
  unfold Scanner.bump at stepped
  cases isPending : scanner.pending with
  | nil =>
      simp [read, isPending] at stepped
      simp [← stepped]
  | cons first rest =>
      cases first <;> simp [read, isPending] at stepped <;> simp [← stepped]

/-- Only digits and words make a scanner look ahead. -/
theorem tokenFrom
    {first : Char}
    (noDigit : first.isDigit = false)
    (notAlphabetic : isAlphabetic first = false) :
    KeepsUnpeeked (tokenFrom first) := by
  unfold Scanner.tokenFrom
  split
  · exact token _ _
  · split
    · refine (takeWhile _).bind fun inner => bump.bind fun quote => ?_
      cases quote <;> exact token _ _
    · rw [if_neg (Bool.eq_false_iff.mp noDigit), if_neg (Bool.eq_false_iff.mp notAlphabetic)]
      exact token _ _

end KeepsUnpeeked

/-- A call leaves no character looked at, if neither a digit nor a letter comes behind the
blanks. -/
theorem peeked_eq_none_of_scan
    {scanner after : Scanner}
    {token : Token}
    (scanned : scan scanner = .ok token after)
    {blanks : List Char}
    {behind : List CharRead}
    (isPending : scanner.pending = blanks.map .char ++ behind)
    (blank : ∀ c ∈ blanks, isBlank c = true)
    (ends : ∀ read ∈ behind.head?, read.satisfies isBlank = false)
    (noRun : ∀ c rest, behind = .char c :: rest → c.isDigit = false ∧ isAlphabetic c = false) :
    after.peeked = none := by
  obtain ⟨skipped, stepped, isBehind, _⟩ := Performs.takeWhile blank ends isPending
  have unpeeked := peeked_eq_none_of_takeWhile stepped
  simp only [scan, Bind.bind, EStateM.bind, stepped, result] at scanned
  rcases char_or_stops behind with ⟨first, rest, rfl⟩ | ⟨stop, left, stops⟩
  · obtain ⟨begun, bumped, _, _⟩ := Performs.bump_char first rest isBehind
    obtain ⟨noDigit, notAlphabetic⟩ := noRun first rest rfl
    simp only [bumped, result] at scanned
    exact KeepsUnpeeked.tokenFrom noDigit notAlphabetic (KeepsUnpeeked.bump unpeeked bumped) scanned
  · obtain ⟨ended, bumped, _, _⟩ := Performs.bump_stops stops isBehind
    cases stop with
    | error fault => simp [bumped, result, Except.map] at scanned
    | ok _ =>
        simp only [bumped, result, Except.map] at scanned
        exact KeepsUnpeeked.token _ _ (KeepsUnpeeked.bump unpeeked bumped) scanned

/-- A call leaves a character looked at only behind a run of digits or a word. -/
theorem isRunToken_of_peeked
    {scanner after : Scanner}
    {token : Token}
    (scanned : scan scanner = .ok token after)
    (looked : after.peeked ≠ none) :
    IsRunToken token := by
  obtain ⟨blanks, behind, text, left, outcome, isPending, blank, portion⟩ :=
    exists_portion scanner.pending
  obtain ⟨after', scanned', _, _⟩ := performs_scan blank portion isPending
  rw [scanned] at scanned'
  cases outcome with
  | error fault => simp [result, Except.map] at scanned'
  | ok kind =>
      obtain ⟨rfl, rfl⟩ : token = ⟨kind, String.ofList text, after'.position⟩ ∧ after = after' := by
        simpa [result, Except.map] using scanned'
      rcases portion.isRun_or with isRun | noRun
      · simpa [IsRunToken] using isRun
      · exact absurd (peeked_eq_none_of_scan scanned isPending blank
          portion.satisfies_isBlank_eq_false noRun) looked

/-- One call: what was pending are the characters that the call consumes, at most one read
that gave no character, and what is pending behind the call. -/
theorem call_accounts (scanner : Scanner) :
    ∃ taken gone, scanner.pending = taken.map .char ++ gone ++ scanner.call.2.pending ∧
      gone.filterMap CharRead.char? = [] ∧
      scanner.call.2.position = scanner.position.advanceOver taken ∧
      Accounts scanner.call.1 taken ∧
      ∀ token, scanner.call.1 = .ok token → scanner.call.2.peeked ≠ none → IsRunToken token := by
  obtain ⟨blanks, behind, text, left, outcome, isPending, blank, portion⟩ :=
    exists_portion scanner.pending
  obtain ⟨after, scanned, rfl, position⟩ := performs_scan blank portion isPending
  obtain ⟨gone, rfl, noChar⟩ := portion.exists_eq_append
  refine ⟨blanks ++ text, gone, ?_⟩
  cases outcome with
  | ok kind =>
      have scanned : scan scanner = .ok ⟨kind, String.ofList text, after.position⟩ after := scanned
      have accounts : Accounts (.ok ⟨kind, String.ofList text, after.position⟩)
          (blanks ++ (String.ofList text).toList) := .token blank
      rw [String.toList_ofList] at accounts
      simp only [call, scanned]
      refine ⟨by simp [isPending], noChar, position, accounts, fun token isToken looked => ?_⟩
      cases isToken
      exact isRunToken_of_peeked scanned looked
  | error fault =>
      have scanned : scan scanner = .error (fault.error after.position) after := scanned
      simp only [call, scanned]
      exact ⟨by simp [isPending], noChar, position, .error blank portion.isOpen_of_error, by simp⟩

/-- What some calls keep: the reads behind them are what is still pending of all reads, and
the characters in front of these are those that the calls consumed. -/
theorem calls_account_pending
    (scanner : Scanner)
    (n : Nat) :
    ∃ past consumed, scanner.pending = past ++ (scanner.calls n).2.pending ∧
      past.filterMap CharRead.char? = consumed.flatten ∧
      (scanner.calls n).2.position = scanner.position.advanceOver consumed.flatten ∧
      List.Forall₂ Accounts (scanner.calls n).1 consumed ∧
      ∀ token, (scanner.calls n).1.getLast? = some (.ok token) →
        (scanner.calls n).2.peeked ≠ none → IsRunToken token := by
  induction n with
  | zero => exact ⟨[], [], rfl, rfl, rfl, .nil, by simp [calls]⟩
  | succ n inductionHypothesis =>
      obtain ⟨past, consumed, isPending, chars, position, accounts, _⟩ := inductionHypothesis
      obtain ⟨taken, gone, isPending', noChar, position', accounts', looked⟩ :=
        call_accounts (scanner.calls n).2
      have items : (scanner.calls (n + 1)).1 =
          (scanner.calls n).1 ++ [(scanner.calls n).2.call.1] := rfl
      have after : (scanner.calls (n + 1)).2 = (scanner.calls n).2.call.2 := rfl
      have takenChars : (taken.map CharRead.char).filterMap CharRead.char? = taken := by
        rw [List.filterMap_map]
        exact List.filterMap_some
      refine ⟨past ++ (taken.map .char ++ gone), consumed ++ [taken], ?_, ?_, ?_, ?_, ?_⟩
      · rw [isPending, isPending', after]
        simp only [List.append_assoc]
      · simp only [List.filterMap_append, chars, takenChars, noChar, List.append_nil,
          List.flatten_append, List.flatten_singleton]
      · rw [after, position', position, List.flatten_append, List.flatten_singleton,
          Position.advanceOver_append]
      · rw [items]
        exact List.rel_append accounts (.cons accounts' .nil)
      · intro token isLast
        rw [items, List.getLast?_concat] at isLast
        exact looked token (Option.some.inj isLast)

/-- Whatever a source gives and however often its scanner was called, the characters that
were read are those that the calls consumed, each as part of what it gave, and behind them
the one that has been looked at, if there is one.  The position is that of the last
character that was consumed, and behind a token a character has been looked at only if the
token is a run of digits or a word. -/
theorem calls_account
    (reader : Reader)
    (n : Nat) :
    ∃ done consumed, reader.characters = done ++ ((ofReader reader).calls n).2.reads ∧
      done.filterMap CharRead.char? =
        consumed.flatten ++ ((ofReader reader).calls n).2.peeked.toList ∧
      ((ofReader reader).calls n).2.position = Position.start.advanceOver consumed.flatten ∧
      List.Forall₂ Accounts ((ofReader reader).calls n).1 consumed ∧
      ∀ token, ((ofReader reader).calls n).1.getLast? = some (.ok token) →
        ((ofReader reader).calls n).2.peeked ≠ none → IsRunToken token := by
  obtain ⟨past, consumed, isPending, chars, position, accounts, looked⟩ :=
    calls_account_pending (ofReader reader) n
  have isPending : reader.characters = past ++ ((ofReader reader).calls n).2.pending := isPending
  generalize (ofReader reader).calls n = reached at *
  obtain ⟨items, reads, reached, peeked⟩ := reached
  refine ⟨past ++ peeked.toList.map .char, consumed, ?_, ?_, position, accounts, looked⟩
  · cases peeked with
    | none => simpa using isPending
    | some c => simpa using isPending
  · cases peeked <;> simp [chars]

end Scanner
end Covenant
