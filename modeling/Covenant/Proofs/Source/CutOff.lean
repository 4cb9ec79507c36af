import Covenant.Proofs.Source.Carried
import Covenant.Proofs.Source.Scanning

/-!
# Sources that are cut off

Where a fault of the source follows a text, the stream gives the tokens of the text and
then one error, with the position of the last character of the text.  Only a token that is
still open where the text ends is lost: the fault is found when the scanner asks how the
token goes on.  The law is stated for the answers of a stream one by one, beyond its end as
well (`Scanner.nth_tokens_of_carries`).
-/

namespace Covenant

/-- A token of a source that is open and reaches the end of the source. -/
structure Token.IsOpenAtEnd (source : List Char) (token : Token) : Prop where
  suffix : token.value.toList <:+ source
  isOpen : IsOpen token.value.toList

/-- The tokens of a source that remain when the source is cut off behind its text: all of
them, except for a last one that is open at the end. -/
inductive Remain (source : List Char) : List Token → List Token → Prop
  | all {pieces : List Token} :
      (∀ last ∈ pieces.getLast?, ¬last.IsOpenAtEnd source) →
      Remain source pieces pieces
  | butLast {kept : List Token} {last : Token} :
      last.IsOpenAtEnd source →
      Remain source (kept ++ [last]) kept

/-- One more token in front remains, unless it is the last one. -/
theorem Remain.cons
    {source : List Char}
    {pieces kept : List Token}
    (remain : Remain source pieces kept)
    {token : Token}
    (closed : pieces = [] → ¬token.IsOpenAtEnd source) :
    Remain source (token :: pieces) (token :: kept) := by
  cases remain with
  | @butLast kept last isOpen =>
      have longer : Remain source ((token :: kept) ++ [last]) (token :: kept) := .butLast isOpen
      exact longer
  | all noneOpen =>
      refine .all fun last isLast => ?_
      cases pieces with
      | nil =>
          obtain rfl : token = last := by simpa using isLast
          exact closed rfl
      | cons first others => exact noneOpen last (by simpa using isLast)

/-- A piece that something follows does not end with a blank. -/
theorem IsPiece.isBlank_getLast_eq_false
    {before value after : List Char}
    {kind : TokenKind}
    (piece : IsPiece before kind value after)
    (followed : after ≠ []) :
    ∀ c ∈ value.getLast?, isBlank c = false := by
  intro last isLast
  cases piece with
  | structural found =>
      obtain rfl : _ = last := Option.some.inj isLast
      exact isBlank_eq_false_of_mem_marks (TokenKind.mem_marks_of_structural? found)
  | @string inner _ _ =>
      have quote : ('"' :: inner ++ ['"']).getLast? = some '"' := List.getLast?_concat
      obtain rfl : '"' = last := Option.some.inj (quote.symm.trans isLast)
      decide
  | unclosed => contradiction
  | digits isRun =>
      exact isBlank_eq_false_of_isDigit (isRun.accepted last (List.mem_of_mem_getLast? isLast))
  | word isRun =>
      have accepted := isRun.accepted last (List.mem_of_mem_getLast? isLast)
      exact isBlank_eq_false_of_isAlphabetic accepted
  | stray _ _ _ _ noBlank =>
      obtain rfl : _ = last := Option.some.inj isLast
      exact noBlank

/-- A text with no token but the end token is blank. -/
theorem Tiles.blank_of_singleton
    {before text : List Char}
    {last : Token}
    (tiles : Tiles before text [last]) :
    ∀ c ∈ text, isBlank c = true := by
  generalize isSingle : [last] = tokens at tiles
  cases tiles with
  | finish blank => exact blank
  | piece _ _ tiles =>
      obtain ⟨-, rfl⟩ := List.cons.inj isSingle
      obtain ⟨pieces, last, noTokens, _⟩ := tiles.exists_eq_concat
      simp at noTokens

/-- An empty text has no token but the end token. -/
theorem Tiles.exists_eq_singleton
    {before : List Char}
    {tokens : List Token}
    (tiles : Tiles before [] tokens) :
    ∃ last, tokens = [last] := by
  generalize isEmpty : [] = text at tiles
  cases tiles with
  | finish => exact ⟨_, rfl⟩
  | piece _ piece _ =>
      have noValue := piece.value_ne_nil
      simp at isEmpty
      exact absurd isEmpty.2.1 noValue

/-- Where blanks follow a piece, it does not reach the end of the source. -/
theorem IsPiece.not_suffix_of_blanks
    {before value after : List Char}
    {kind : TokenKind}
    (piece : IsPiece before kind value after)
    (followed : after ≠ [])
    (blank : ∀ c ∈ after, isBlank c = true)
    (front : List Char) :
    ¬value <:+ front ++ after := by
  rintro ⟨others, same⟩
  have lasts : value.getLast? = after.getLast? := by
    rw [← List.getLast?_append_of_ne_nil others piece.value_ne_nil, same,
      List.getLast?_append_of_ne_nil front followed]
  have isLast := List.getLast?_eq_some_getLast followed
  have blankLast := blank _ (List.getLast_mem followed)
  rw [piece.isBlank_getLast_eq_false followed _ (lasts.trans isLast)] at blankLast
  contradiction

namespace TokenStream

/-- From where a tiled text begins with a fault of the source behind it, a run gives the
tokens of the tiling that remain, and then the error. -/
theorem exists_items_of_tiles_failed
    {before text : List Char}
    {tokens : List Token}
    (tiles : Tiles before text tokens)
    {fault : SourceFault}
    {rest : List CharRead}
    {scanner : Scanner}
    (pending : scanner.pending = text.map .char ++ fault.read :: rest)
    (position : scanner.position = Position.start.advanceOver before) :
    ∃ pieces last kept, tokens = pieces ++ [last] ∧ Remain (before ++ text) pieces kept ∧
      items ⟨scanner, false⟩ =
        kept.map .ok ++ [.error (fault.error (Position.start.advanceOver (before ++ text)))] := by
  induction tiles generalizing scanner with
  | @finish before blanks blank =>
      obtain ⟨after, scanned, _, position'⟩ :=
        Scanner.performs_scan blank (.finish (.failed fault rest)) pending
      rw [List.append_nil, position, ← Position.advanceOver_append] at position'
      refine ⟨[], _, [], rfl, .all (by simp), ?_⟩
      rw [items, drain_of_error scanned, position']
      rfl
  | @piece before blanks value after kind tokens blank piece tiles inductionHypothesis =>
      have whole : before ++ (blanks ++ (value ++ after)) =
          before ++ (blanks ++ value) ++ after := by
        simp
      rw [List.map_append, List.append_assoc] at pending
      rw [whole]
      rcases piece.portion (.failed fault rest) with ⟨portion, closed⟩ | ⟨rfl, isOpen, portion⟩
      · obtain ⟨next, scanned, isLeft, position'⟩ := Scanner.performs_scan blank portion pending
        rw [position, ← Position.advanceOver_append] at position'
        obtain ⟨pieces, last, kept, rfl, remain, given⟩ := inductionHypothesis isLeft position'
        refine ⟨_ :: pieces, last, _ :: kept, rfl, remain.cons fun noMore isOpenAtEnd => ?_, ?_⟩
        · subst noMore
          have isSuffix := isOpenAtEnd.suffix
          have isOpen := isOpenAtEnd.isOpen
          simp only [String.toList_ofList] at isSuffix isOpen
          by_cases atEnd : after = []
          · exact closed atEnd isOpen
          · exact piece.not_suffix_of_blanks atEnd tiles.blank_of_singleton _ isSuffix
        · rw [items, drain_of_token scanned piece.kind_ne_endOfInput, position']
          exact congrArg _ given
      · rw [List.append_nil] at pending
        obtain ⟨next, scanned, _, position'⟩ := Scanner.performs_scan blank portion pending
        rw [position, ← Position.advanceOver_append] at position'
        obtain ⟨last, rfl⟩ := tiles.exists_eq_singleton
        refine ⟨[_], last, [], rfl, @Remain.butLast _ [] _ ⟨?_, ?_⟩, ?_⟩
        · rw [String.toList_ofList, List.append_nil, ← List.append_assoc]
          exact List.suffix_append _ _
        · rwa [String.toList_ofList]
        · rw [items, drain_of_error scanned, position', List.append_nil]
          rfl

/-- What a stream answers after it has been asked some number of times. -/
def nth (stream : TokenStream) : Nat → Option Item
  | 0 => stream.next?.1
  | n + 1 => stream.next?.2.nth n

theorem nth_finished (scanner : Scanner) (n : Nat) : nth ⟨scanner, true⟩ n = none := by
  induction n with
  | zero => rfl
  | succ n inductionHypothesis => exact inductionHypothesis

/-- A stream answers with its items one after the other, and with none for ever behind
them. -/
theorem nth_eq_getElem?_items
    (scanner : Scanner)
    (n : Nat) :
    nth ⟨scanner, false⟩ n = (items ⟨scanner, false⟩)[n]? := by
  induction n generalizing scanner with
  | zero =>
      rw [nth, next?]
      cases scanned : Scanner.scan scanner with
      | error error after => simp [items, drain_of_error scanned]
      | ok token after =>
          by_cases isEnd : token.kind = .endOfInput
          · simp [items, drain_of_end scanned isEnd]
          · simp [items, drain_of_token scanned isEnd]
  | succ n inductionHypothesis =>
      rw [nth, next?]
      cases scanned : Scanner.scan scanner with
      | error error after => simp [items, drain_of_error scanned, nth_finished]
      | ok token after =>
          by_cases isEnd : token.kind = .endOfInput
          · simp [items, drain_of_end scanned isEnd, isEnd, nth_finished]
          · simp [items, drain_of_token scanned isEnd, isEnd, inductionHypothesis]

end TokenStream

namespace Scanner

/-- The answers of the stream of a source that carries a text.  If nothing but the end of
the input follows the text, they are the tokens of the text.  If a fault of the source
follows, they are those tokens of the text that remain, without the end token, then the
error with the position of the last character of the text, and then none for ever. -/
theorem nth_tokens_of_carries
    {reader : Reader}
    {text : String}
    {ending : Option SourceFault}
    (carries : Carries reader.bytes text ending) :
    ∃ pieces last, tokenize text = .ok (pieces ++ [last]) ∧ last.kind = .endOfInput ∧
      match ending with
      | none => ∀ n, (ofReader reader).tokens.nth n = ((pieces ++ [last]).map Except.ok)[n]?
      | some fault =>
        ∃ kept, Remain text.toList pieces kept ∧
          ∀ n, (ofReader reader).tokens.nth n =
            (kept.map Except.ok ++
              [.error (fault.error (Position.start.advanceOver text.toList))])[n]? := by
  obtain ⟨tail, read, closes⟩ := carries.exists_charactersFrom_eq
  have isPending : (ofReader reader).pending = text.toList.map .char ++ tail := read
  obtain ⟨tokens, tiles⟩ := exists_tiles (.nil text.toList)
  obtain ⟨pieces, last, rfl, isEnd, _⟩ := tiles.exists_eq_concat
  refine ⟨pieces, last, tiles.tokenize_eq_ok, isEnd, ?_⟩
  cases closes with
  | ended ended =>
      intro n
      have given := TokenStream.items_of_tiles_ended tiles ended isPending rfl
      rw [Scanner.tokens, TokenStream.nth_eq_getElem?_items, given]
  | failed fault rest =>
      obtain ⟨pieces', last', kept, same, remain, given⟩ :=
        TokenStream.exists_items_of_tiles_failed tiles isPending rfl
      obtain ⟨rfl, -⟩ := List.append_inj' same rfl
      refine ⟨kept, remain, fun n => ?_⟩
      rw [Scanner.tokens, TokenStream.nth_eq_getElem?_items, given, List.nil_append]

/-- A word and a number, and behind them a read that fails inside a character. -/
def cutInsideSign : Reader :=
  [.delivered [0xC3, 0xA9, 0x20], .interrupted, .delivered [0x31, 0x32, 0xE2],
    .delivered [0x82], .failure "disk on fire", .delivered [0x33]]

theorem nth_tokens_cutInsideSign :
    Carries cutInsideSign.bytes "é 12" (some (.failure "disk on fire")) ∧
      (∃ pieces last, tokenize "é 12" = .ok (pieces ++ [last]) ∧ last.kind = .endOfInput ∧
        ∃ kept, Remain "é 12".toList pieces kept ∧
          ∀ n, (ofReader cutInsideSign).tokens.nth n =
            (kept.map Except.ok ++ [.error (.readFailure ⟨1, 4⟩ "disk on fire")])[n]?) ∧
      (ofReader cutInsideSign).tokens.nth 0 = some (.ok ⟨.invalid, "é", ⟨1, 1⟩⟩) ∧
      (ofReader cutInsideSign).tokens.nth 1 =
        some (.error (.readFailure ⟨1, 4⟩ "disk on fire")) := by
  have same : cutInsideSign.bytes =
      (Utf8.encode "é 12" ++ [0xE2, 0x82]).map .byte ++
        [.failure "disk on fire", .byte 0x33] := by decide +kernel
  have announces : Utf8.following? 0xE2 = some 2 := by decide
  have incomplete : Utf8.IsIncomplete [0xE2, 0x82] := .begun announces (by decide)
  have carries : Carries cutInsideSign.bytes "é 12" (some (.failure "disk on fire")) :=
    same ▸ .failure "é 12" "disk on fire" [.byte 0x33] incomplete
  exact ⟨carries, nth_tokens_of_carries carries, by decide +kernel, by decide +kernel⟩

end Scanner
end Covenant
