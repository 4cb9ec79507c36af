import Covenant.Proofs.Ledger.KeyOrder
import Covenant.Proofs.Source.Scanning
import Mathlib.Data.List.DropRight

/-!
# Positions of tokens

A scanner advances its position with every character that it consumes.  Where a text has
been consumed, the position tells how many lines the text has and how many characters its
last line has (`Position.start_advanceOver`), and it grows with every further character as
long as the line number fits into a word.  The position of a token is therefore that of
its last character, whatever stands before and behind the token, and later tokens have
greater positions (`tokenize_positions`).
-/

namespace Covenant

namespace Position

/-- The number of the line on which a text ends: one more than it has line feeds. -/
def lineOf (text : List Char) : Nat :=
  text.count '\n' + 1

/-- The number of characters behind the last line feed of a text. -/
def columnOf (text : List Char) : Nat :=
  (text.rtakeWhile (· != '\n')).length

/-- The position of the last character of a text, in words of 32 bits. -/
def behind (text : List Char) : Position :=
  ⟨.ofNat (lineOf text), .ofNat (columnOf text)⟩

theorem behind_concat (text : List Char) (c : Char) :
    behind (text ++ [c]) = (behind text).advance c := by
  rw [advance]
  split
  · rename_i lineFeed
    subst lineFeed
    simp [behind, lineOf, columnOf]
  · rename_i noLineFeed
    simp [behind, lineOf, columnOf, noLineFeed]

/-- Consuming a text from the beginning leads behind it. -/
theorem start_advanceOver (text : List Char) : start.advanceOver text = behind text := by
  induction text using List.reverseRecOn with
  | nil => rfl
  | append_singleton text c inductionHypothesis =>
      rw [advanceOver_append, inductionHypothesis, behind_concat]
      rfl

theorem columnOf_le_length (text : List Char) : columnOf text ≤ text.length :=
  (List.rtakeWhile_suffix _ text).length_le

theorem lineOf_append (text run : List Char) :
    lineOf (text ++ run) = lineOf text + run.count '\n' := by
  simp only [lineOf, List.count_append]
  omega

theorem columnOf_append
    (text : List Char)
    {run : List Char}
    (noLineFeed : '\n' ∉ run) :
    columnOf (text ++ run) = columnOf text + run.length := by
  induction run using List.reverseRecOn with
  | nil => simp
  | append_singleton run c inductionHypothesis =>
      obtain ⟨noLineFeed, other⟩ : '\n' ∉ run ∧ c ≠ '\n' := by simpa [eq_comm] using noLineFeed
      have continued := inductionHypothesis noLineFeed
      rw [columnOf] at continued ⊢
      rw [← List.append_assoc, List.rtakeWhile_concat_pos _ _ _ (by simpa using other),
        List.length_append, continued, List.length_append, Nat.add_assoc]

/-- A text is so short that its line number and its column are words. -/
structure Fits (text : List Char) : Prop where
  short : text.length < UInt32.size
  line : lineOf text < UInt32.size

namespace Fits

variable {text run : List Char}

theorem of_append (fits : Fits (text ++ run)) : Fits text where
  short := by
    have short := fits.short
    rw [List.length_append] at short
    omega
  line := by
    have line := fits.line
    rw [lineOf_append] at line
    omega

theorem toNat_line (fits : Fits text) : (behind text).line.toNat = lineOf text :=
  UInt32.toNat_ofNat_of_lt fits.line

theorem toNat_column (fits : Fits text) : (behind text).column.toNat = columnOf text :=
  UInt32.toNat_ofNat_of_lt (Nat.lt_of_le_of_lt (columnOf_le_length text) fits.short)

end Fits

/-- Where a text goes on, it comes to a further line, or its last line becomes longer. -/
theorem lineOf_append_or (text run : List Char) :
    lineOf text < lineOf (text ++ run) ∨
      lineOf text = lineOf (text ++ run) ∧ columnOf (text ++ run) = columnOf text + run.length := by
  rw [lineOf_append]
  by_cases lineFeed : '\n' ∈ run
  · exact .inl (Nat.lt_add_of_pos_right (List.count_pos_iff.mpr lineFeed))
  · rw [List.count_eq_zero.mpr lineFeed]
    exact .inr ⟨rfl, columnOf_append text lineFeed⟩

theorem compare_eq_lt_iff
    {first second : Position} :
    compare first second = .lt ↔
      first.line < second.line ∨ first.line = second.line ∧ first.column < second.column := by
  have compare_word {word other : UInt32} : compare word other = .lt ↔ word < other :=
    compareOfLessAndEq_eq_lt
  exact compareLex_eq_lt_iff.trans (by rw [compare_word, compare_word])

/-- As long as they are words, line numbers and columns are compared as numbers. -/
theorem compare_behind_eq_lt_iff
    {text other : List Char}
    (fits : Fits text)
    (fitsOther : Fits other) :
    compare (behind text) (behind other) = .lt ↔
      lineOf text < lineOf other ∨ lineOf text = lineOf other ∧ columnOf text < columnOf other := by
  rw [compare_eq_lt_iff, UInt32.lt_iff_toNat_lt, UInt32.lt_iff_toNat_lt, ← UInt32.toNat_inj,
    fits.toNat_line, fits.toNat_column, fitsOther.toNat_line, fitsOther.toNat_column]

/-- Every further character makes the position greater. -/
theorem compare_behind_append
    {text run : List Char}
    (fits : Fits (text ++ run))
    (nonempty : run ≠ []) :
    compare (behind text) (behind (text ++ run)) = .lt := by
  rw [compare_behind_eq_lt_iff fits.of_append fits]
  have := List.length_pos_iff.mpr nonempty
  have := lineOf_append_or text run
  omega

/-- What a text goes on with makes the position no smaller. -/
theorem compare_behind_append_ne_lt
    {text run : List Char}
    (fits : Fits (text ++ run)) :
    compare (behind (text ++ run)) (behind text) ≠ .lt := by
  rw [Ne, compare_behind_eq_lt_iff fits fits.of_append]
  have := lineOf_append_or text run
  omega

end Position

/-- A block of a source is the text of a token with the blanks in front of it. -/
def Token.IsBlock (token : Token) (block : List Char) : Prop :=
  ∃ blanks, (∀ c ∈ blanks, isBlank c = true) ∧ block = blanks ++ token.value.toList

namespace Tiles

variable {before text : List Char} {tokens : List Token}

/-- The tokens of a tiling cut a text into blocks, and each has the position of the end of
its block. -/
theorem exists_blocks (tiles : Tiles before text tokens) :
    ∃ blocks, text = blocks.flatten ∧ List.Forall₂ Token.IsBlock tokens blocks ∧
      ∀ (index : Nat) (token : Token), tokens[index]? = some token →
        token.position = .behind (before ++ (blocks.take (index + 1)).flatten) := by
  induction tiles with
  | @finish before blanks blank =>
      refine ⟨[blanks], by simp, .cons ⟨blanks, blank, by simp⟩ .nil, ?_⟩
      intro index token found
      cases index with
      | zero =>
          cases found
          simp [Position.start_advanceOver]
      | succ index => simp at found
  | @piece before blanks value after kind tokens blank _ _ inductionHypothesis =>
      obtain ⟨blocks, rfl, areBlocks, positions⟩ := inductionHypothesis
      have isBlock : Token.IsBlock ⟨kind, String.ofList value,
          Position.start.advanceOver (before ++ (blanks ++ value))⟩ (blanks ++ value) :=
        ⟨blanks, blank, by rw [String.toList_ofList]⟩
      refine ⟨(blanks ++ value) :: blocks, by simp, .cons isBlock areBlocks, ?_⟩
      intro index token found
      cases index with
      | zero =>
          cases found
          simp [Position.start_advanceOver]
      | succ index =>
          rw [positions index token found]
          simp

/-- Behind where a tiling begins, every token but the end token ends somewhere in the
text. -/
theorem exists_eq_append_of_mem
    (tiles : Tiles before text tokens)
    {token : Token}
    (listed : token ∈ tokens)
    (notEnd : token.kind ≠ .endOfInput) :
    ∃ run rest, text = run ++ rest ∧ run ≠ [] ∧ token.position = .behind (before ++ run) := by
  induction tiles with
  | finish =>
      obtain rfl := List.mem_singleton.mp listed
      contradiction
  | @piece before blanks value after kind tokens blank piece _ inductionHypothesis =>
      rcases List.mem_cons.mp listed with rfl | listed
      · refine ⟨blanks ++ value, after, by simp, ?_, Position.start_advanceOver _⟩
        simp [piece.value_ne_nil]
      · obtain ⟨run, rest, rfl, nonempty, position⟩ := inductionHypothesis listed
        exact ⟨blanks ++ value ++ run, rest, by simp, by simp [nonempty], by simp [position]⟩

/-- The end token has the position of the end of the text. -/
theorem position_of_endOfInput
    (tiles : Tiles before text tokens)
    {token : Token}
    (listed : token ∈ tokens)
    (isEnd : token.kind = .endOfInput) :
    token.position = .behind (before ++ text) := by
  induction tiles with
  | finish =>
      obtain rfl := List.mem_singleton.mp listed
      exact Position.start_advanceOver _
  | piece _ piece _ inductionHypothesis =>
      rcases List.mem_cons.mp listed with rfl | listed
      · exact absurd isEnd piece.kind_ne_endOfInput
      · rw [inductionHypothesis listed]
        simp

/-- Later tokens have greater positions, and the end token has no smaller one. -/
theorem pairwise_position
    (tiles : Tiles before text tokens)
    (fits : Position.Fits (before ++ text)) :
    tokens.Pairwise fun earlier later =>
      compare later.position earlier.position ≠ .lt ∧
        (later.kind ≠ .endOfInput → compare earlier.position later.position = .lt) := by
  induction tiles with
  | finish => exact List.pairwise_singleton _ _
  | @piece before blanks value after kind tokens blank piece tiles inductionHypothesis =>
      have whole :
          before ++ (blanks ++ (value ++ after)) = before ++ (blanks ++ value) ++ after := by
        simp
      rw [whole] at fits
      refine List.pairwise_cons.mpr ⟨fun later listed => ?_, inductionHypothesis fits⟩
      by_cases isEnd : later.kind = .endOfInput
      · rw [tiles.position_of_endOfInput listed isEnd, Position.start_advanceOver]
        exact ⟨Position.compare_behind_append_ne_lt fits, absurd isEnd⟩
      · obtain ⟨run, rest, rfl, nonempty, position⟩ := tiles.exists_eq_append_of_mem listed isEnd
        rw [← List.append_assoc] at fits
        rw [position, Position.start_advanceOver]
        exact ⟨Position.compare_behind_append_ne_lt fits.of_append,
          fun _ => Position.compare_behind_append fits.of_append nonempty⟩

/-- A short text with a token besides the end token has fewer line feeds than characters,
so that the number of its last line is a word. -/
theorem fits_of_mem
    (tiles : Tiles before text tokens)
    {token : Token}
    (listed : token ∈ tokens)
    (notEnd : token.kind ≠ .endOfInput)
    (short : (before ++ text).length < UInt32.size) :
    Position.Fits (before ++ text) := by
  have exists_other : ∃ c ∈ text, c ≠ '\n' := by
    cases tiles with
    | finish =>
        obtain rfl := List.mem_singleton.mp listed
        contradiction
    | @piece _ blanks value after _ _ _ piece _ =>
        obtain ⟨first, others, rfl⟩ := List.exists_cons_of_ne_nil piece.value_ne_nil
        refine ⟨first, by simp, ?_⟩
        rintro rfl
        have noBlank := piece.isBlank_head_eq_false '\n' rfl
        contradiction
  obtain ⟨c, inside, other⟩ := exists_other
  have fewer : (before ++ text).count '\n' < (before ++ text).length := by
    refine Nat.lt_of_le_of_ne List.count_le_length fun same => ?_
    exact other (List.count_eq_length.mp same c (List.mem_append_right before inside)).symm
  exact ⟨short, Nat.lt_of_le_of_lt fewer short⟩

end Tiles

/-- The tokens of a source have the positions of their last characters. -/
structure Placed
    (source : List Char)
    (pieces : List Token)
    (last : Token)
    (blocks : List (List Char)) :
    Prop where
  /-- The source consists of one block for every token, the end token included. -/
  source_eq : source = blocks.flatten
  isBlock : List.Forall₂ Token.IsBlock (pieces ++ [last]) blocks
  /-- Every token has the position of the end of its block.  What is behind the last block
  is the end of the source. -/
  position : ∀ (index : Nat) (token : Token), (pieces ++ [last])[index]? = some token →
    token.position = .behind (blocks.take (index + 1)).flatten
  /-- The words of a position hold the numbers themselves.  A line number could be cut off
  only at the end of the source, and only if the source is nothing but line feeds. -/
  numbers : ∀ (index : Nat) (token : Token), (pieces ++ [last])[index]? = some token →
    index < pieces.length ∨ Position.lineOf source < UInt32.size →
    token.position.line.toNat = Position.lineOf (blocks.take (index + 1)).flatten ∧
      token.position.column.toNat = Position.columnOf (blocks.take (index + 1)).flatten
  /-- Positions ascend strictly. -/
  ascending : pieces.Pairwise fun earlier later =>
    compare earlier.position later.position = .lt
  /-- The position of the end is not smaller than any other. -/
  end_not_before : ∀ token ∈ pieces, compare last.position token.position ≠ .lt

/-- The tokens of a tiling have the positions of their last characters if the source has
fewer than 2^32 of them. -/
theorem Tiles.exists_placed
    {source : List Char}
    {pieces : List Token}
    {last : Token}
    (tiles : Tiles [] source (pieces ++ [last]))
    (noEnd : ∀ token ∈ pieces, token.kind ≠ .endOfInput)
    (short : source.length < UInt32.size) :
    ∃ blocks, Placed source pieces last blocks := by
  obtain ⟨blocks, parted, areBlocks, positions⟩ := tiles.exists_blocks
  have fits : ∀ token ∈ pieces, Position.Fits source := fun token listed =>
    tiles.fits_of_mem (List.mem_append_left _ listed) (noEnd token listed) short
  have pairwise : pieces ≠ [] → (pieces ++ [last]).Pairwise fun earlier later =>
      compare later.position earlier.position ≠ .lt ∧
        (later.kind ≠ .endOfInput → compare earlier.position later.position = .lt) := by
    intro nonempty
    obtain ⟨first, listed⟩ := List.exists_mem_of_ne_nil pieces nonempty
    exact tiles.pairwise_position (fits first listed)
  refine ⟨blocks, parted, areBlocks, positions, fun index token found isWord => ?_, ?_, ?_⟩
  · have fitsSource : Position.Fits source :=
      isWord.elim (fun inside => fits _ (List.getElem_mem inside)) (.mk short)
    have fitsFront : Position.Fits (blocks.take (index + 1)).flatten := by
      rw [parted, ← List.take_append_drop (index + 1) blocks, List.flatten_append] at fitsSource
      exact fitsSource.of_append
    rw [positions index token found]
    exact ⟨fitsFront.toNat_line, fitsFront.toNat_column⟩
  · by_cases empty : pieces = []
    · rw [empty]
      exact .nil
    · have ascending := (List.pairwise_append.mp (pairwise empty)).1
      exact ascending.imp_of_mem fun _ listed both => both.2 (noEnd _ listed)
  · intro token listed
    have ascending := pairwise (List.ne_nil_of_mem listed)
    exact ((List.pairwise_append.mp ascending).2.2 token listed last List.mem_cons_self).1

/-- In a source of fewer than 2^32 characters every token has the position of its last
character, and the end token that of the end of the source.  Positions ascend strictly
from token to token, and that of the end token is not smaller than any of them. -/
theorem tokenize_positions
    (source : String)
    (short : source.length < UInt32.size) :
    ∃ pieces last blocks, tokenize source = .ok (pieces ++ [last]) ∧
      last.kind = .endOfInput ∧ (∀ token ∈ pieces, token.kind ≠ .endOfInput) ∧
      Placed source.toList pieces last blocks := by
  obtain ⟨tokens, tiles⟩ := exists_tiles (.nil source.toList)
  obtain ⟨pieces, last, rfl, isEnd, _, noEnd⟩ := tiles.exists_eq_concat
  rw [← String.length_toList] at short
  obtain ⟨blocks, placed⟩ := tiles.exists_placed noEnd short
  exact ⟨pieces, last, blocks, tiles.tokenize_eq_ok, isEnd, noEnd, placed⟩

/-- A source with one text that is closed on the next line and one that ends with a line
feed and is never closed. -/
def acrossLines : String := "é \"x\n\" 12 \"y\n"

theorem tokenize_positions_acrossLines :
    acrossLines.length < UInt32.size ∧
      (∃ pieces last blocks, tokenize acrossLines = .ok (pieces ++ [last]) ∧
        last.kind = .endOfInput ∧ (∀ token ∈ pieces, token.kind ≠ .endOfInput) ∧
        Placed acrossLines.toList pieces last blocks) ∧
      tokenize acrossLines = .ok [⟨.invalid, "é", ⟨1, 1⟩⟩, ⟨.string, "\"x\n\"", ⟨2, 1⟩⟩,
        ⟨.integer, "12", ⟨2, 4⟩⟩, ⟨.string, "\"y\n", ⟨3, 0⟩⟩, ⟨.endOfInput, "", ⟨3, 0⟩⟩] := by
  have short : acrossLines.length < UInt32.size := by decide
  exact ⟨short, tokenize_positions acrossLines short, by decide +kernel⟩

end Covenant
