import Covenant.Proofs.Source.Positions

/-!
# Line feeds between sources

Behind a line feed a source is cut as if it began there: a line feed is a blank, no digits
and no word go on across it, and it neither makes digits invalid nor is it a character of
any other piece but a string.  So where a source does not end inside a string, the tokens
of what follows the next line feed do not depend on it, but for their line numbers, and
its own tokens do not depend on what follows (`tokenize_lineFeed`).  A source ends inside
a string if it has an odd number of quotes (`endsInsideString_iff`).
-/

namespace Covenant

namespace Position

/-- The position that is on a line as many lines further down, in the same column. -/
def below (position : Position) (lines : Nat) : Position :=
  ⟨position.line + .ofNat lines, position.column⟩

theorem advance_below
    (position : Position)
    (lines : Nat)
    (c : Char) :
    (position.below lines).advance c = (position.advance c).below lines := by
  unfold advance below
  split
  · rw [UInt32.add_assoc, UInt32.add_comm (.ofNat lines), UInt32.add_assoc]
  · rfl

theorem advanceOver_below
    (position : Position)
    (lines : Nat)
    (text : List Char) :
    (position.below lines).advanceOver text = (position.advanceOver text).below lines := by
  induction text generalizing position with
  | nil => rfl
  | cons c text inductionHypothesis =>
      rw [advanceOver_cons, advanceOver_cons, advance_below, inductionHypothesis]

/-- Behind a line feed, positions are those of a source that begins there, as many lines
further down as the line feed ends. -/
theorem start_advanceOver_lineFeed (front text : List Char) :
    start.advanceOver (front ++ '\n' :: text) =
      (start.advanceOver text).below (front.count '\n' + 1) := by
  have lineStart : (start.advanceOver front).advance '\n' =
      start.below (front.count '\n' + 1) := by
    rw [start_advanceOver, advance, if_pos rfl, below, behind, lineOf, start, UInt32.add_comm]
  rw [advanceOver_append, advanceOver_cons, lineStart, advanceOver_below]

theorem toNat_line_below
    {position : Position}
    {lines : Nat}
    (fits : position.line.toNat + lines < UInt32.size) :
    (position.below lines).line.toNat = position.line.toNat + lines := by
  have fitsLines : lines < UInt32.size := Nat.lt_of_le_of_lt (Nat.le_add_left ..) fits
  rw [below, UInt32.toNat_add, UInt32.toNat_ofNat_of_lt' fitsLines, Nat.mod_eq_of_lt fits]

theorem toNat_line_behind_le (text : List Char) : (behind text).line.toNat ≤ lineOf text :=
  Nat.mod_le _ _

end Position

/-- The token with its position as many lines further down. -/
def Token.below (token : Token) (lines : Nat) : Token :=
  { token with position := token.position.below lines }

/-- A token is a string whose closing quote is missing. -/
def Token.IsUnclosed (token : Token) : Prop :=
  token.kind = .string ∧ token.value.toList.count '"' = 1

/-- A source ends inside a string that it does not close. -/
def EndsInsideString (source : String) : Prop :=
  ∃ tokens, tokenize source = .ok tokens ∧ ∃ token ∈ tokens, token.IsUnclosed

theorem isBlank_lineFeed : isBlank '\n' = true := by decide

/-! ## Behind a line feed -/

section

variable {before text value after : List Char} {kind : TokenKind} {tokens : List Token}

/-- A run begins behind a line feed as it begins at the beginning of a source. -/
theorem IsRun.behind_lineFeed
    {accept : Char → Bool}
    (isRun : IsRun accept before value after)
    (refused : accept '\n' = false)
    (front : List Char) :
    IsRun accept (front ++ '\n' :: before) value after where
  nonempty := isRun.nonempty
  accepted := isRun.accepted
  begins := by
    intro c isLast
    rw [List.getLast?_append_of_ne_nil _ (List.cons_ne_nil _ _), List.getLast?_cons] at isLast
    cases found : before.getLast? with
    | none =>
        rw [found] at isLast
        obtain rfl : '\n' = c := Option.some.inj isLast
        exact refused
    | some last =>
        rw [found] at isLast
        obtain rfl : last = c := Option.some.inj isLast
        exact isRun.begins last found
  ends := isRun.ends

theorem IsPiece.behind_lineFeed
    (piece : IsPiece before kind value after)
    (front : List Char) :
    IsPiece (front ++ '\n' :: before) kind value after := by
  cases piece with
  | structural found => exact .structural found
  | string noQuote => exact .string noQuote
  | unclosed noQuote => exact .unclosed noQuote
  | digits isRun => exact .digits (isRun.behind_lineFeed (by decide) front)
  | word isRun =>
      exact .word (isRun.behind_lineFeed (isAlphabetic_eq_false_of_isBlank isBlank_lineFeed) front)
  | stray noStructure noQuote noDigit notAlphabetic noBlank =>
      exact .stray noStructure noQuote noDigit notAlphabetic noBlank

/-- What tiles a text at the beginning of a source tiles it behind any line feed, further
down. -/
theorem Tiles.behind_lineFeed
    (tiles : Tiles before text tokens)
    (front : List Char) :
    Tiles (front ++ '\n' :: before) text
      (tokens.map fun token => token.below (front.count '\n' + 1)) := by
  induction tiles with
  | @finish before blanks blank =>
      have finished : Tiles (front ++ '\n' :: before) blanks _ := .finish blank
      rw [List.append_assoc, List.cons_append, Position.start_advanceOver_lineFeed] at finished
      exact finished
  | @piece before blanks value after kind tokens blank piece _ inductionHypothesis =>
      have behind := piece.behind_lineFeed front
      rw [← List.cons_append, ← List.append_assoc] at behind inductionHypothesis
      have tiled := Tiles.piece blank behind inductionHypothesis
      rw [List.append_assoc, List.cons_append, Position.start_advanceOver_lineFeed] at tiled
      exact tiled

/-! ## In front of a line feed -/

/-- Whether the next character meets a test is not changed by a line feed behind the text,
unless the line feed itself meets it. -/
theorem head?_any_before_lineFeed
    (test : Char → Bool)
    (refused : test '\n' = false)
    (text rest : List Char) :
    (text ++ '\n' :: rest).head?.any test = text.head?.any test := by
  cases text with
  | nil => simp [refused]
  | cons next text => rfl

theorem IsRun.before_lineFeed
    {accept : Char → Bool}
    (isRun : IsRun accept before value after)
    (refused : accept '\n' = false)
    (rest : List Char) :
    IsRun accept before value (after ++ '\n' :: rest) where
  nonempty := isRun.nonempty
  accepted := isRun.accepted
  begins := isRun.begins
  ends := by
    cases after with
    | nil => simp [refused]
    | cons next after => exact isRun.ends

/-- A piece that is no unclosed string is the same piece if a line feed and more text
follow. -/
theorem IsPiece.before_lineFeed
    (piece : IsPiece before kind value after)
    (closed : ¬(kind = .string ∧ value.count '"' = 1))
    (rest : List Char) :
    IsPiece before kind value (after ++ '\n' :: rest) := by
  cases piece with
  | structural found => exact .structural found
  | string noQuote => exact .string noQuote
  | unclosed noQuote =>
      refine absurd ⟨rfl, ?_⟩ closed
      rw [List.count_cons_self, List.count_eq_zero.mpr noQuote]
  | digits isRun =>
      have unbroken : (isLetter '\n' || isPunctuation '\n') = false := by
        rw [isLetter_eq_false_of_isBlank isBlank_lineFeed,
          isPunctuation_eq_false_of_isBlank isBlank_lineFeed, Bool.or_self]
      have digits := IsPiece.digits (isRun.before_lineFeed (by decide) rest)
      rwa [head?_any_before_lineFeed (fun c => isLetter c || isPunctuation c) unbroken] at digits
  | word isRun =>
      exact .word (isRun.before_lineFeed (isAlphabetic_eq_false_of_isBlank isBlank_lineFeed) rest)
  | stray noStructure noQuote noDigit notAlphabetic noBlank =>
      exact .stray noStructure noQuote noDigit notAlphabetic noBlank

/-- Blanks in front of a tiled text are blanks in front of its first token. -/
theorem Tiles.of_blanks
    {blanks : List Char}
    (blank : ∀ c ∈ blanks, isBlank c = true)
    (tiles : Tiles (before ++ blanks) text tokens) :
    Tiles before (blanks ++ text) tokens := by
  cases tiles with
  | finish blankOthers =>
      have allBlank := List.forall_mem_append.mpr ⟨blank, blankOthers⟩
      have finished : Tiles before (blanks ++ text) _ := .finish allBlank
      rwa [← List.append_assoc] at finished
  | @piece _ others value after kind tokens blankOthers piece tiles =>
      have allBlank := List.forall_mem_append.mpr ⟨blank, blankOthers⟩
      rw [List.append_assoc] at piece tiles
      rw [← List.append_assoc blanks others value] at tiles
      simpa only [List.append_assoc] using Tiles.piece allBlank piece tiles

/-- Where a text does not end inside a string, its tokens but the last, and then the tokens
of what follows a line feed, tile the whole. -/
theorem Tiles.append_lineFeed
    (tiles : Tiles before text tokens)
    (closed : ∀ token ∈ tokens, ¬token.IsUnclosed)
    {rest : List Char}
    {others : List Token}
    (tilesRest : Tiles (before ++ (text ++ ['\n'])) rest others) :
    ∃ pieces last, tokens = pieces ++ [last] ∧ last.kind = .endOfInput ∧
      (∀ token ∈ pieces, token.kind ≠ .endOfInput) ∧
      Tiles before (text ++ '\n' :: rest) (pieces ++ others) := by
  induction tiles with
  | @finish before blanks blank =>
      have allBlank : ∀ c ∈ blanks ++ ['\n'], isBlank c = true :=
        List.forall_mem_append.mpr ⟨blank, List.forall_mem_singleton.mpr isBlank_lineFeed⟩
      have tiled := tilesRest.of_blanks allBlank
      rw [List.append_assoc] at tiled
      exact ⟨[], _, rfl, rfl, by simp, tiled⟩
  | @piece before blanks value after kind tokens blank piece _ inductionHypothesis =>
      obtain ⟨closedPiece, closed⟩ := List.forall_mem_cons.mp closed
      have tilesRest : Tiles (before ++ (blanks ++ value) ++ (after ++ ['\n'])) rest others := by
        simpa only [List.append_assoc] using tilesRest
      obtain ⟨pieces, last, rfl, isEnd, noEnd, tiled⟩ := inductionHypothesis closed tilesRest
      have isPiece := piece.before_lineFeed (by simpa [Token.IsUnclosed] using closedPiece) rest
      refine ⟨_ :: pieces, last, rfl, isEnd,
        List.forall_mem_cons.mpr ⟨piece.kind_ne_endOfInput, noEnd⟩, ?_⟩
      simpa only [List.append_assoc, List.cons_append] using Tiles.piece blank isPiece tiled

/-- No blank is a quote. -/
theorem count_quote_of_blank
    {blanks : List Char}
    (blank : ∀ c ∈ blanks, isBlank c = true) :
    blanks.count '"' = 0 := by
  refine List.count_eq_zero.mpr fun listed => ?_
  have isBlankQuote := blank '"' listed
  contradiction

/-- A piece is a string that the text does not close, or it has as many opening quotes as
closing ones. -/
theorem IsPiece.count_quote
    (piece : IsPiece before kind value after) :
    (kind = .string ∧ value.count '"' = 1) ∧ after = [] ∨ value.count '"' % 2 = 0 := by
  have even_of_not_mem (noQuote : '"' ∉ value) : value.count '"' % 2 = 0 := by
    rw [List.count_eq_zero.mpr noQuote]
  cases piece with
  | structural found =>
      refine .inr (even_of_not_mem fun listed => ?_)
      obtain rfl := List.mem_singleton.mp listed
      simp [TokenKind.structural?] at found
  | string noQuote =>
      rw [List.count_append, List.count_cons_self, List.count_eq_zero.mpr noQuote]
      exact .inr rfl
  | unclosed noQuote =>
      rw [List.count_cons_self, List.count_eq_zero.mpr noQuote]
      exact .inl ⟨⟨rfl, rfl⟩, rfl⟩
  | digits isRun =>
      refine .inr (even_of_not_mem fun listed => ?_)
      have digit := isRun.accepted '"' listed
      contradiction
  | word isRun =>
      refine .inr (even_of_not_mem fun listed => ?_)
      have alphabetic := isRun.accepted '"' listed
      rw [isAlphabetic_eq_false_of_mem_marks (by decide)] at alphabetic
      contradiction
  | stray _ noQuote _ _ _ =>
      refine .inr (even_of_not_mem fun listed => noQuote ?_)
      exact (List.mem_singleton.mp listed).symm

/-- A text ends inside a string exactly if it has an odd number of quotes. -/
theorem Tiles.exists_isUnclosed_iff
    (tiles : Tiles before text tokens) :
    (∃ token ∈ tokens, token.IsUnclosed) ↔ text.count '"' % 2 = 1 := by
  induction tiles with
  | finish blank =>
      rw [count_quote_of_blank blank]
      simp [Token.IsUnclosed]
  | @piece before blanks value after kind tokens blank piece _ inductionHypothesis =>
      rw [List.count_append, List.count_append, count_quote_of_blank blank,
        List.exists_mem_cons_iff, inductionHypothesis, Token.IsUnclosed, String.toList_ofList]
      rcases piece.count_quote with ⟨⟨isString, once⟩, rfl⟩ | even
      · exact ⟨fun _ => by rw [once, List.count_nil], fun _ => .inl ⟨isString, once⟩⟩
      · omega

theorem Tiles.toNat_line_le
    (tiles : Tiles before text tokens)
    {token : Token}
    (listed : token ∈ tokens) :
    token.position.line.toNat ≤ Position.lineOf (before ++ text) := by
  by_cases isEnd : token.kind = .endOfInput
  · rw [tiles.position_of_endOfInput listed isEnd]
    exact Position.toNat_line_behind_le _
  · obtain ⟨run, rest, rfl, _, position⟩ := tiles.exists_eq_append_of_mem listed isEnd
    rw [position, ← List.append_assoc, Position.lineOf_append]
    exact Nat.le_add_right_of_le (Position.toNat_line_behind_le _)

end

theorem endsInsideString_iff
    {source : String} :
    EndsInsideString source ↔ source.toList.count '"' % 2 = 1 := by
  obtain ⟨tokens, tiles⟩ := exists_tiles (.nil source.toList)
  rw [EndsInsideString, ← tiles.exists_isUnclosed_iff, tiles.tokenize_eq_ok]
  simp only [Except.ok.injEq, exists_eq_left']

/-- Two sources with a line feed between them are cut into the tokens of the first without
its end token, and then the tokens of the second, further down. -/
structure CutApart
    (first second : String)
    (pieces : List Token)
    (last : Token)
    (others : List Token) :
    Prop where
  tokens_first : tokenize first = .ok (pieces ++ [last])
  isEnd : last.kind = .endOfInput
  noEnd : ∀ token ∈ pieces, token.kind ≠ .endOfInput
  tokens_second : tokenize second = .ok others
  /-- Kinds, texts and columns are those of the sources by themselves, and so are the lines
  of the first.  Those of the second are as many lines further down as line feeds stand in
  front of it. -/
  tokens_both : tokenize (first ++ "\n" ++ second) =
    .ok (pieces ++ others.map fun token => token.below (first.toList.count '\n' + 1))
  /-- The words of a position hold the numbers of the lines themselves.  A line number could
  be cut off only at the end of the whole, and only if that is nothing but line feeds. -/
  numbers : ∀ token ∈ others,
    token.kind ≠ .endOfInput ∨
      Position.lineOf (first ++ "\n" ++ second).toList < UInt32.size →
    (token.below (first.toList.count '\n' + 1)).position.line.toNat =
      token.position.line.toNat + (first.toList.count '\n' + 1)

/-- If a source does not end inside a string, a line feed keeps apart whatever stands in
front of it and behind it, valid or not, in fewer than 2^32 characters. -/
theorem tokenize_lineFeed
    (first second : String)
    (closed : ¬EndsInsideString first)
    (short : (first ++ "\n" ++ second).length < UInt32.size) :
    ∃ pieces last others, CutApart first second pieces last others := by
  obtain ⟨tokens, tilesFirst⟩ := exists_tiles (.nil first.toList)
  obtain ⟨others, tilesSecond⟩ := exists_tiles (.nil second.toList)
  have allClosed : ∀ token ∈ tokens, ¬token.IsUnclosed := fun token listed unclosed =>
    closed ⟨tokens, tilesFirst.tokenize_eq_ok, token, listed, unclosed⟩
  obtain ⟨pieces, last, rfl, isEnd, noEnd, tiled⟩ :=
    tilesFirst.append_lineFeed allClosed (tilesSecond.behind_lineFeed first.toList)
  have whole : (first ++ "\n" ++ second).toList = first.toList ++ '\n' :: second.toList := by
    simp
  rw [← String.length_toList] at short
  rw [← whole] at tiled
  refine ⟨pieces, last, others, tilesFirst.tokenize_eq_ok, isEnd, noEnd,
    tilesSecond.tokenize_eq_ok, tiled.tokenize_eq_ok, fun token listed isWord => ?_⟩
  have fits : Position.lineOf (first ++ "\n" ++ second).toList < UInt32.size := by
    refine isWord.elim (fun notEnd => ?_) id
    have listedBelow :=
      List.mem_map_of_mem (f := (Token.below · (first.toList.count '\n' + 1))) listed
    exact (tiled.fits_of_mem (List.mem_append_right pieces listedBelow) notEnd short).line
  have lines : Position.lineOf (first ++ "\n" ++ second).toList =
      Position.lineOf second.toList + (first.toList.count '\n' + 1) := by
    rw [whole, Position.lineOf, Position.lineOf, List.count_append, List.count_cons_self]
    omega
  have upper := tilesSecond.toNat_line_le listed
  exact Position.toNat_line_below (Nat.lt_of_le_of_lt (Nat.add_le_add_right upper _) (lines ▸ fits))

/-- A source with digits that a letter makes invalid, a text over two lines, and digits at
its end. -/
def endsWithDigits : String := "12x \"a\n(\" 34"

/-- A source that begins with a letter and ends inside a string. -/
def opensQuote : String := "é Pay\n\""

theorem tokenize_lineFeed_endsWithDigits :
    ¬EndsInsideString endsWithDigits ∧
      (endsWithDigits ++ "\n" ++ opensQuote).length < UInt32.size ∧
      (∃ pieces last others, CutApart endsWithDigits opensQuote pieces last others) ∧
      tokenize (endsWithDigits ++ "\n" ++ opensQuote) = .ok [⟨.invalid, "12", ⟨1, 2⟩⟩,
        ⟨.invalid, "x", ⟨1, 3⟩⟩, ⟨.string, "\"a\n(\"", ⟨2, 2⟩⟩, ⟨.integer, "34", ⟨2, 5⟩⟩,
        ⟨.invalid, "é", ⟨3, 1⟩⟩, ⟨.keyword, "Pay", ⟨3, 5⟩⟩, ⟨.string, "\"", ⟨4, 1⟩⟩,
        ⟨.endOfInput, "", ⟨4, 1⟩⟩] := by
  have closed : ¬EndsInsideString endsWithDigits := by
    rw [endsInsideString_iff]
    decide
  have short : (endsWithDigits ++ "\n" ++ opensQuote).length < UInt32.size := by decide
  exact ⟨closed, short, tokenize_lineFeed _ _ closed short, by decide +kernel⟩

end Covenant
