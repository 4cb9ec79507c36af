import Covenant.Proofs.Source.Calls
import Covenant.Proofs.Source.Tiling
import Covenant.Source.Reader.Text
import Covenant.Source.TokenStream

/-!
# Scanning a text

Where a source gives the characters of a text, a piece of the text is just what a call
takes behind the blanks (`IsPiece.portion`).  A whole run therefore gives the tokens of a
tiling, and as every text has a tiling, there is just one.
-/

namespace Covenant

/-- A quote, a digit or an alphabetic character is open, and no other character is. -/
theorem not_isOpen_singleton
    {c : Char}
    (noQuote : c ≠ '"')
    (noDigit : c.isDigit = false)
    (notAlphabetic : isAlphabetic c = false) :
    ¬IsOpen [c] := by
  intro isOpen
  cases isOpen with
  | digits _ accepted => simp [noDigit] at accepted
  | word _ accepted => simp [notAlphabetic] at accepted
  | string => exact noQuote rfl

theorem not_isOpen_closed (inner : List Char) : ¬IsOpen ('"' :: inner ++ ['"']) := by
  intro isOpen
  cases isOpen with
  | digits _ accepted =>
      have digit := accepted '"' List.mem_cons_self
      contradiction
  | word _ accepted =>
      have alphabetic := accepted '"' List.mem_cons_self
      rw [isAlphabetic_eq_false_of_mem_marks (by decide)] at alphabetic
      contradiction
  | string noQuote => simp at noQuote

namespace IsPiece

variable {before value after : List Char} {kind : TokenKind}

/-- In front of the reads that stop at the end of a text, a piece of the text is a
portion.  A piece that is open and reaches the end of the text runs into what stops the
reads. -/
theorem portion
    (piece : IsPiece before kind value after)
    {tail left : List CharRead}
    {stop : Except SourceFault Unit}
    (stops : Stops tail stop left) :
    (Portion ((value ++ after).map .char ++ tail) value (after.map .char ++ tail) (.ok kind) ∧
        (after = [] → ¬IsOpen value)) ∨
      (after = [] ∧ IsOpen value ∧
        Portion (value.map .char ++ tail) value left (stop.map fun _ => kind)) := by
  rw [List.map_append, List.append_assoc]
  cases piece with
  | @structural c _ _ found =>
      have mark := TokenKind.mem_marks_of_structural? found
      have noQuote : c ≠ '"' := by
        rintro rfl
        simp [TokenKind.structural?] at found
      exact .inl ⟨.structural found, fun _ => not_isOpen_singleton noQuote
        (isDigit_eq_false_of_mem_marks mark) (isAlphabetic_eq_false_of_mem_marks mark)⟩
  | string noQuote => exact .inl ⟨.string noQuote, fun _ => not_isOpen_closed _⟩
  | unclosed noQuote => exact .inr ⟨rfl, .string noQuote, .unclosed noQuote stops⟩
  | digits isRun =>
      obtain ⟨first, others, rfl⟩ := List.exists_cons_of_ne_nil isRun.nonempty
      cases after with
      | nil =>
          have looked := Portion.digits isRun.accepted (.stops stops)
          refine .inr ⟨rfl, .digits isRun.nonempty isRun.accepted, ?_⟩
          cases stop <;> exact looked
      | cons next after =>
          exact .inl ⟨.digits isRun.accepted (.char (isRun.ends next rfl)), by simp⟩
  | word isRun =>
      obtain ⟨first, others, rfl⟩ := List.exists_cons_of_ne_nil isRun.nonempty
      simp only [← isKeyword_iff]
      cases after with
      | nil =>
          have looked := Portion.word isRun.accepted (.stops stops)
          refine .inr ⟨rfl, .word isRun.nonempty isRun.accepted, ?_⟩
          cases stop <;> exact looked
      | cons next after =>
          exact .inl ⟨.word isRun.accepted (.char (isRun.ends next rfl)), by simp⟩
  | stray noStructure noQuote noDigit notAlphabetic noBlank =>
      exact .inl ⟨.stray noStructure noQuote noDigit notAlphabetic noBlank, fun _ =>
        not_isOpen_singleton noQuote noDigit notAlphabetic⟩

end IsPiece

namespace TokenStream

/-- Where nothing but the end of the input comes, the reads stop there, and nothing else
is left. -/
theorem exists_stops_of_ended
    {tail : List CharRead}
    (ended : ∀ read ∈ tail, read = .endOfInput) :
    ∃ left, Stops tail (.ok ()) left ∧ ∀ read ∈ left, read = .endOfInput := by
  cases tail with
  | nil => exact ⟨[], .exhausted, ended⟩
  | cons read rest =>
      obtain ⟨rfl, endedRest⟩ := List.forall_mem_cons.mp ended
      exact ⟨rest, .ended rest, endedRest⟩

/-- From where a tiled text begins with nothing but the end of the input behind it, a run
gives the tokens of the tiling. -/
theorem items_of_tiles_ended
    {before text : List Char}
    {tokens : List Token}
    (tiles : Tiles before text tokens)
    {tail : List CharRead}
    (ended : ∀ read ∈ tail, read = .endOfInput)
    {scanner : Scanner}
    (pending : scanner.pending = text.map .char ++ tail)
    (position : scanner.position = Position.start.advanceOver before) :
    items ⟨scanner, false⟩ = tokens.map .ok := by
  induction tiles generalizing scanner tail with
  | @finish before blanks blank =>
      obtain ⟨left, stops, _⟩ := exists_stops_of_ended ended
      obtain ⟨after, scanned, _, position'⟩ :=
        Scanner.performs_scan blank (.finish stops) pending
      rw [List.append_nil, position, ← Position.advanceOver_append] at position'
      rw [items, drain_of_end scanned rfl, position']
      rfl
  | @piece before blanks value after kind tokens blank piece _ inductionHypothesis =>
      obtain ⟨left, stops, endedLeft⟩ := exists_stops_of_ended ended
      rw [List.map_append, List.append_assoc] at pending
      have scanned : ∃ next tail, Scanner.scan scanner =
            .ok ⟨kind, String.ofList value, next.position⟩ next ∧
          next.pending = after.map .char ++ tail ∧ (∀ read ∈ tail, read = .endOfInput) ∧
          next.position = scanner.position.advanceOver (blanks ++ value) := by
        rcases piece.portion stops with ⟨portion, _⟩ | ⟨rfl, _, portion⟩
        · obtain ⟨next, scanned, isLeft, position'⟩ := Scanner.performs_scan blank portion pending
          exact ⟨next, tail, scanned, isLeft, ended, position'⟩
        · rw [List.append_nil] at pending
          obtain ⟨next, scanned, isLeft, position'⟩ := Scanner.performs_scan blank portion pending
          exact ⟨next, left, scanned, isLeft, endedLeft, position'⟩
      obtain ⟨next, tail, scanned, isLeft, ended, position'⟩ := scanned
      rw [position, ← Position.advanceOver_append] at position'
      rw [items, drain_of_token scanned piece.kind_ne_endOfInput, List.map_cons, position']
      exact congrArg _ (inductionHypothesis ended isLeft position')

/-- From where a tiled text begins, a run gives the tokens of the tiling. -/
theorem items_of_tiles
    {before text : List Char}
    {tokens : List Token}
    (tiles : Tiles before text tokens)
    {scanner : Scanner}
    (pending : scanner.pending = text.map .char)
    (position : scanner.position = Position.start.advanceOver before) :
    items ⟨scanner, false⟩ = tokens.map .ok :=
  items_of_tiles_ended tiles (by simp) (pending.trans (List.append_nil _).symm) position

end TokenStream

theorem Tiles.tokenize_eq_ok
    {source : String}
    {tokens : List Token}
    (tiles : Tiles [] source.toList tokens) :
    tokenize source = .ok tokens := by
  have items : (Scanner.ofText source).tokens.items = tokens.map .ok :=
    TokenStream.items_of_tiles tiles (Reader.characters_ofText source) rfl
  rw [tokenize, items, List.mapM_map]
  exact List.mapM_pure.trans (congrArg pure (List.map_id tokens))

/-- Every source is tiled by the tokens that it is cut into, the single end token last,
and by no others. -/
theorem tokenize_tiles (source : String) :
    ∃ tokens, tokenize source = .ok tokens ∧
      Tiles [] source.toList tokens ∧
      (∀ other, Tiles [] source.toList other → other = tokens) ∧
      ∃ pieces last, tokens = pieces ++ [last] ∧
        last.kind = .endOfInput ∧ last.value = "" ∧
        ∀ token ∈ pieces, token.kind ≠ .endOfInput := by
  obtain ⟨tokens, tiles⟩ := exists_tiles (.nil source.toList)
  refine ⟨tokens, tiles.tokenize_eq_ok, tiles, fun other tiles' => ?_, tiles.exists_eq_concat⟩
  exact Except.ok.inj (tiles'.tokenize_eq_ok.symm.trans tiles.tokenize_eq_ok)

end Covenant
