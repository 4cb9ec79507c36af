import Covenant.Proofs.Source.Grammar
import Covenant.Proofs.Source.Positions

/-!
# Words next to digits

A run of digits is broken by a letter or a punctuation mark that comes directly behind it.
A word begins with any alphabetic character, and some of these are no letters, such as the
numeral eight among the Roman ones.  Digits with a word directly behind them are therefore
an integer exactly if the word begins with such a character, and never in front of a
keyword (`integer_iff_of_touch_word`).
-/

namespace Covenant

/-- Two tokens of a source follow each other, without a character in between: the block of
the second one is its text alone. -/
def Touch (source : String) (first second : Token) : Prop :=
  ∃ tokens blocks index, tokenize source = .ok tokens ∧
    source.toList = blocks.flatten ∧ List.Forall₂ Token.IsBlock tokens blocks ∧
    tokens[index]? = some first ∧ tokens[index + 1]? = some second ∧
    blocks[index + 1]? = some second.value.toList

/-- A token is a run of digits. -/
def Token.IsDigitRun (token : Token) : Prop :=
  token.value.toList ≠ [] ∧ ∀ c ∈ token.value.toList, c.isDigit = true

/-- A token is a word: a keyword, or an invalid run of alphabetic characters. -/
def Token.IsWord (token : Token) : Prop :=
  token.kind = .keyword ∨
    token.kind = .invalid ∧ token.value.toList ≠ [] ∧
      ∀ c ∈ token.value.toList, isAlphabetic c = true

/-! ## Tokens that touch -/

/-- Blanks and a text without a blank in front can be parted in one way only. -/
theorem eq_of_blanks_append
    {blanks blanks' value after after' : List Char}
    (blank : ∀ c ∈ blanks, isBlank c = true)
    (blank' : ∀ c ∈ blanks', isBlank c = true)
    (nonempty : value ≠ [])
    (begins : ∀ c ∈ value.head?, isBlank c = false)
    (same : blanks ++ (value ++ after) = blanks' ++ (value ++ after')) :
    after = after' := by
  obtain ⟨first, others, rfl⟩ := List.exists_cons_of_ne_nil nonempty
  have ends (after : List Char) : ∀ c ∈ (first :: others ++ after).head?, isBlank c = false :=
    begins
  have sameBlanks := congrArg (List.takeWhile isBlank) same
  rw [takeWhile_append_of_ends blank (ends after), takeWhile_append_of_ends blank' (ends after')]
    at sameBlanks
  rw [sameBlanks] at same
  exact List.append_cancel_left (List.append_cancel_left same)

namespace Tiles

variable {before text : List Char} {tokens : List Token}

/-- Every token but the end token is a piece at its place. -/
theorem exists_isPiece_of_mem
    (tiles : Tiles before text tokens)
    {token : Token}
    (listed : token ∈ tokens)
    (notEnd : token.kind ≠ .endOfInput) :
    ∃ front behind, IsPiece front token.kind token.value.toList behind := by
  induction tiles with
  | finish =>
      obtain rfl := List.mem_singleton.mp listed
      contradiction
  | piece _ piece _ inductionHypothesis =>
      rcases List.mem_cons.mp listed with rfl | listed
      · exact ⟨_, _, by rwa [String.toList_ofList]⟩
      · exact inductionHypothesis listed

/-- A token that another one touches is a piece in front of the other's text. -/
theorem exists_isPiece_of_touch
    (tiles : Tiles before text tokens)
    {blocks : List (List Char)}
    (parted : text = blocks.flatten)
    (areBlocks : List.Forall₂ Token.IsBlock tokens blocks)
    {index : Nat}
    {first second : Token}
    (isFirst : tokens[index]? = some first)
    (isSecond : tokens[index + 1]? = some second)
    (touches : blocks[index + 1]? = some second.value.toList) :
    ∃ front behind,
      IsPiece front first.kind first.value.toList (second.value.toList ++ behind) := by
  induction tiles generalizing blocks index with
  | finish => simp at isSecond
  | @piece before blanks value after kind tokens blank piece _ inductionHypothesis =>
      cases areBlocks with
      | @cons _ block _ blocks isBlock areBlocks =>
          obtain ⟨blanks', blank', rfl⟩ := isBlock
          rw [String.toList_ofList, List.flatten_cons, List.append_assoc] at parted
          have parted := eq_of_blanks_append blank blank' piece.value_ne_nil
            piece.isBlank_head_eq_false parted
          cases index with
          | zero =>
              cases isFirst
              rw [List.getElem?_cons_succ, ← List.head?_eq_getElem?] at touches
              obtain ⟨others, rfl⟩ := List.head?_eq_some_iff.mp touches
              rw [String.toList_ofList]
              exact ⟨_, others.flatten, by rwa [parted] at piece⟩
          | succ index => exact inductionHypothesis parted areBlocks isFirst isSecond touches

end Tiles

namespace IsPiece

variable {before value after : List Char} {kind : TokenKind}

theorem isDigit_of_integer
    (piece : IsPiece before kind value after)
    (isInteger : kind = .integer) :
    value ≠ [] ∧ ∀ c ∈ value, c.isDigit = true := by
  subst isInteger
  rcases piece.isSymbol_or_unclosed (by decide) with symbol | ⟨_, other, _⟩
  · cases symbol with
    | structural found => exact absurd rfl (TokenKind.ne_of_structural? found).1
    | integer nonempty accepted => exact ⟨nonempty, accepted⟩
  · cases other

theorem isLetter_of_keyword
    (piece : IsPiece before kind value after)
    (isKeyword : kind = .keyword) :
    value ≠ [] ∧ ∀ c ∈ value, isLetter c = true := by
  subst isKeyword
  rcases piece.isSymbol_or_unclosed (by decide) with symbol | ⟨_, other, _⟩
  · cases symbol with
    | structural found => exact absurd rfl (TokenKind.ne_of_structural? found).2.1
    | keyword known => exact isLetter_of_mem_keyword known
  · cases other

/-- Digits are an integer or not by what comes directly behind them. -/
theorem kind_of_digits
    (piece : IsPiece before kind value after)
    (digits : ∀ c ∈ value, c.isDigit = true) :
    kind =
      if after.head?.any fun c => isLetter c || isPunctuation c then .invalid else .integer := by
  cases piece with
  | structural found =>
      have mark := TokenKind.mem_marks_of_structural? found
      simp [isDigit_eq_false_of_mem_marks mark] at digits
  | string => exact absurd (digits '"' (by simp)) (by decide)
  | unclosed => exact absurd (digits '"' (by simp)) (by decide)
  | digits => rfl
  | word isRun =>
      obtain ⟨first, others, rfl⟩ := List.exists_cons_of_ne_nil isRun.nonempty
      have digit := digits first List.mem_cons_self
      rw [isDigit_eq_false_of_isAlphabetic (isRun.accepted first List.mem_cons_self)] at digit
      contradiction
  | stray _ _ noDigit => simp [noDigit] at digits

end IsPiece

theorem Token.IsWord.exists_cons
    {token : Token}
    (isWord : token.IsWord)
    {front behind : List Char}
    (piece : IsPiece front token.kind token.value.toList behind) :
    ∃ c others, token.value.toList = c :: others ∧ isAlphabetic c = true := by
  have alphabetic : token.value.toList ≠ [] ∧
      ∀ c ∈ token.value.toList, isAlphabetic c = true := by
    rcases isWord with isKeyword | ⟨_, alphabetic⟩
    · obtain ⟨nonempty, letters⟩ := piece.isLetter_of_keyword isKeyword
      exact ⟨nonempty, fun c listed => isAlphabetic_of_isLetter (letters c listed)⟩
    · exact alphabetic
  obtain ⟨c, others, same⟩ := List.exists_cons_of_ne_nil alphabetic.1
  exact ⟨c, others, same, alphabetic.2 c (same ▸ List.mem_cons_self)⟩

/-- A token with a word directly behind it is an integer exactly if it is a run of digits
and the word begins with a character that is no letter.  The word is no keyword then. -/
theorem integer_iff_of_touch_word
    {source : String}
    {first second : Token}
    (touch : Touch source first second)
    (isWord : second.IsWord) :
    (first.kind = .integer ↔
      first.IsDigitRun ∧ ∀ c ∈ second.value.toList.head?, isLetter c = false) ∧
    (first.kind = .integer → second.kind = .invalid) := by
  obtain ⟨tokens, blocks, index, tokenized, parted, areBlocks, isFirst, isSecond, touches⟩ := touch
  obtain ⟨tokens', tiles⟩ := exists_tiles (.nil source.toList)
  obtain rfl : tokens = tokens' := Except.ok.inj (tokenized.symm.trans tiles.tokenize_eq_ok)
  have notEnd : second.kind ≠ .endOfInput := by
    rcases isWord with isKeyword | ⟨isInvalid, _⟩
    · simp [isKeyword]
    · simp [isInvalid]
  obtain ⟨_, _, secondPiece⟩ :=
    tiles.exists_isPiece_of_mem (List.mem_of_getElem? isSecond) notEnd
  obtain ⟨c, others, begins, alphabetic⟩ := isWord.exists_cons secondPiece
  obtain ⟨_, behind, piece⟩ :=
    tiles.exists_isPiece_of_touch parted areBlocks isFirst isSecond touches
  rw [begins] at piece ⊢
  have noLetter (isInteger : first.kind = .integer) : isLetter c = false :=
    (piece.unbroken_of_integer isInteger c rfl).2.1
  refine ⟨⟨fun isInteger => ⟨piece.isDigit_of_integer isInteger, ?_⟩, fun both => ?_⟩, ?_⟩
  · intro c' isHead
    obtain rfl := Option.some.inj isHead
    exact noLetter isInteger
  · rw [piece.kind_of_digits both.1.2]
    simp [both.2 c rfl, isPunctuation_eq_false_of_isAlphabetic alphabetic]
  · intro isInteger
    rcases isWord with isKeyword | ⟨isInvalid, _⟩
    · have letter := (secondPiece.isLetter_of_keyword isKeyword).2 c (by simp [begins])
      rw [noLetter isInteger] at letter
      contradiction
    · exact isInvalid

theorem integer_iff_of_touch_word_letters :
    ∃ first second, Touch "7 12ab" first second ∧ second.IsWord ∧ first.IsDigitRun ∧
      first.kind ≠ .integer := by
  have touch : Touch "7 12ab" ⟨.invalid, "12", ⟨1, 4⟩⟩ ⟨.invalid, "ab", ⟨1, 6⟩⟩ :=
    ⟨[⟨.integer, "7", ⟨1, 1⟩⟩, ⟨.invalid, "12", ⟨1, 4⟩⟩, ⟨.invalid, "ab", ⟨1, 6⟩⟩,
        ⟨.endOfInput, "", ⟨1, 6⟩⟩],
      [['7'], [' ', '1', '2'], ['a', 'b'], []], 1, by decide +kernel, by decide +kernel,
      .cons ⟨[], List.forall_mem_nil _, rfl⟩
        (.cons ⟨[' '], List.forall_mem_singleton.mpr rfl, rfl⟩
          (.cons ⟨[], List.forall_mem_nil _, rfl⟩
            (.cons ⟨[], List.forall_mem_nil _, rfl⟩ .nil))),
      rfl, rfl, rfl⟩
  have letters : ∀ c ∈ ['a', 'b'], isAlphabetic c = true :=
    List.forall_mem_cons.mpr ⟨by decide +kernel, List.forall_mem_singleton.mpr (by decide +kernel)⟩
  have digits : ∀ c ∈ ['1', '2'], c.isDigit = true :=
    List.forall_mem_cons.mpr ⟨rfl, List.forall_mem_singleton.mpr rfl⟩
  have isWord : Token.IsWord ⟨.invalid, "ab", ⟨1, 6⟩⟩ :=
    .inr ⟨rfl, List.cons_ne_nil _ _, letters⟩
  refine ⟨_, _, touch, isWord, ⟨List.cons_ne_nil _ _, digits⟩, fun isInteger => ?_⟩
  have noLetter := ((integer_iff_of_touch_word touch isWord).1.mp isInteger).2 'a' rfl
  revert noLetter
  decide +kernel

/-- The Roman numeral eight, a single character that is alphabetic and no letter, is a word
behind an integer, without a blank between the two. -/
theorem touch_integer_romanNumeral :
    Touch "5Ⅷ" ⟨.integer, "5", ⟨1, 1⟩⟩ ⟨.invalid, "Ⅷ", ⟨1, 2⟩⟩ ∧
      Token.IsWord ⟨.invalid, "Ⅷ", ⟨1, 2⟩⟩ := by
  have alphabetic : ∀ c ∈ ['Ⅷ'], isAlphabetic c = true :=
    List.forall_mem_singleton.mpr (by decide +kernel)
  refine ⟨⟨[⟨.integer, "5", ⟨1, 1⟩⟩, ⟨.invalid, "Ⅷ", ⟨1, 2⟩⟩, ⟨.endOfInput, "", ⟨1, 2⟩⟩],
    [['5'], ['Ⅷ'], []], 0, by decide +kernel, by decide +kernel, ?_, rfl, rfl, rfl⟩,
    .inr ⟨rfl, List.cons_ne_nil _ _, alphabetic⟩⟩
  exact .cons ⟨[], List.forall_mem_nil _, rfl⟩
    (.cons ⟨[], List.forall_mem_nil _, rfl⟩ (.cons ⟨[], List.forall_mem_nil _, rfl⟩ .nil))

end Covenant
