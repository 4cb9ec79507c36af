import Covenant.Proofs.Text.Classes
import Covenant.Proofs.Text.Runs
import Covenant.Source.Keyword
import Covenant.Text.Punctuation

/-!
# Tilings of a source

A list of tokens tiles a source if the source is the text of the tokens one behind the
other, with nothing but blanks between them, and every token is a piece of the source
at its place.  What a piece is depends on the characters next to it and on nothing
else, so that the pieces of a source can be described without a scanner.
-/

namespace Covenant

/-- The kinds of the pieces that a source can have between one text and another. -/
inductive IsPiece (before : List Char) : TokenKind → List Char → List Char → Prop
  | structural {c : Char} {kind : TokenKind} {after : List Char} :
      TokenKind.structural? c = some kind →
      IsPiece before kind [c] after
  | string {inner after : List Char} :
      '"' ∉ inner →
      IsPiece before .string ('"' :: inner ++ ['"']) after
  /-- A quote that is never closed reaches to the end. -/
  | unclosed {inner : List Char} :
      '"' ∉ inner →
      IsPiece before .string ('"' :: inner) []
  | digits {run after : List Char} :
      IsRun Char.isDigit before run after →
      IsPiece before
        (if after.head?.any fun c => isLetter c || isPunctuation c then .invalid else .integer)
        run after
  | word {run after : List Char} :
      IsRun isAlphabetic before run after →
      IsPiece before (if String.ofList run ∈ keywords then .keyword else .invalid) run after
  | stray {c : Char} {after : List Char} :
      TokenKind.structural? c = none →
      c ≠ '"' →
      c.isDigit = false →
      isAlphabetic c = false →
      isBlank c = false →
      IsPiece before .invalid [c] after

/-- A list of tokens tiles a text that stands behind another.  The position of a token
is that of its last character, and an end token closes the list. -/
inductive Tiles : List Char → List Char → List Token → Prop
  | finish {before blanks : List Char} :
      (∀ c ∈ blanks, isBlank c = true) →
      Tiles before blanks [⟨.endOfInput, "", Position.start.advanceOver (before ++ blanks)⟩]
  | piece {before blanks value after : List Char} {kind : TokenKind} {tokens : List Token} :
      (∀ c ∈ blanks, isBlank c = true) →
      IsPiece (before ++ blanks) kind value after →
      Tiles (before ++ (blanks ++ value)) after tokens →
      Tiles before (blanks ++ (value ++ after))
        (⟨kind, String.ofList value, Position.start.advanceOver (before ++ (blanks ++ value))⟩ ::
          tokens)

namespace IsPiece

variable {before value after : List Char} {kind : TokenKind}

theorem value_ne_nil (piece : IsPiece before kind value after) : value ≠ [] := by
  cases piece with
  | digits isRun => exact isRun.nonempty
  | word isRun => exact isRun.nonempty
  | _ => simp

theorem kind_ne_endOfInput (piece : IsPiece before kind value after) : kind ≠ .endOfInput := by
  cases piece with
  | structural found =>
      rintro rfl
      unfold TokenKind.structural? at found
      split at found <;> simp at found
  | digits => split <;> simp
  | word => split <;> simp
  | _ => simp

/-- A piece does not begin with a blank. -/
theorem isBlank_head_eq_false (piece : IsPiece before kind value after) :
    ∀ c ∈ value.head?, isBlank c = false := by
  intro first isFirst
  cases piece with
  | structural found =>
      obtain rfl := Option.some.inj isFirst
      exact isBlank_eq_false_of_mem_marks (TokenKind.mem_marks_of_structural? found)
  | string _ =>
      obtain rfl := Option.some.inj isFirst
      decide
  | unclosed _ =>
      obtain rfl := Option.some.inj isFirst
      decide
  | digits isRun =>
      exact isBlank_eq_false_of_isDigit (isRun.accepted first (List.mem_of_mem_head? isFirst))
  | word isRun =>
      exact isBlank_eq_false_of_isAlphabetic (isRun.accepted first (List.mem_of_mem_head? isFirst))
  | stray _ _ _ _ noBlank =>
      obtain rfl := Option.some.inj isFirst
      exact noBlank

end IsPiece

/-- A tiling has one end token, which has no text and comes last. -/
theorem Tiles.exists_eq_concat
    {before text : List Char}
    {tokens : List Token}
    (tiles : Tiles before text tokens) :
    ∃ pieces last, tokens = pieces ++ [last] ∧
      last.kind = .endOfInput ∧ last.value = "" ∧
      ∀ token ∈ pieces, token.kind ≠ .endOfInput := by
  induction tiles with
  | finish _ => exact ⟨[], _, rfl, rfl, rfl, by simp⟩
  | piece _ piece _ inductionHypothesis =>
      obtain ⟨pieces, last, rfl, isEnd, empty, noEnd⟩ := inductionHypothesis
      refine ⟨_ :: pieces, last, rfl, isEnd, empty, ?_⟩
      exact List.forall_mem_cons.mpr ⟨piece.kind_ne_endOfInput, noEnd⟩

/-- A place in a source at which neither digits nor a word go on. -/
structure IsTokenStart (before text : List Char) : Prop where
  digits : Splits Char.isDigit before text
  word : Splits isAlphabetic before text

namespace IsTokenStart

theorem nil (text : List Char) : IsTokenStart [] text where
  digits := by simp [Splits]
  word := by simp [Splits]

/-- A text that ends with a character of neither class is followed by a token. -/
theorem of_last
    {run : List Char}
    (nonempty : run ≠ [])
    (noDigit : ∀ c ∈ run.getLast?, c.isDigit = false)
    (notAlphabetic : ∀ c ∈ run.getLast?, isAlphabetic c = false)
    (before text : List Char) :
    IsTokenStart (before ++ run) text where
  digits := .of_last nonempty noDigit text
  word := .of_last nonempty notAlphabetic text

theorem of_blanks
    {before blanks text : List Char}
    (blank : ∀ c ∈ blanks, isBlank c = true)
    (starts : IsTokenStart before (blanks ++ text)) :
    IsTokenStart (before ++ blanks) text := by
  by_cases empty : blanks = []
  · subst empty
    rwa [List.append_nil]
  · have blankLast : ∀ c ∈ blanks.getLast?, isBlank c = true :=
      fun c isLast => blank c (List.mem_of_mem_getLast? isLast)
    refine of_last empty (fun c isLast => ?_) (fun c isLast => ?_) before text
    · apply Bool.eq_false_iff.mpr
      intro digit
      have noBlank := isBlank_eq_false_of_isDigit digit
      rw [blankLast c isLast] at noBlank
      contradiction
    · exact isAlphabetic_eq_false_of_isBlank (blankLast c isLast)

/-- A text that ends with a quote, a parenthesis, a bracket or a comma is followed by a
token. -/
theorem of_mark
    {run : List Char}
    {mark : Char}
    (isLast : run.getLast? = some mark)
    (isMark : CharSet.marks.contains mark = true)
    (before text : List Char) :
    IsTokenStart (before ++ run) text := by
  have nonempty : run ≠ [] := by
    rintro rfl
    simp at isLast
  refine of_last nonempty ?_ ?_ before text
  · intro last found
    obtain rfl := Option.some.inj (isLast.symm.trans found)
    exact isDigit_eq_false_of_mem_marks isMark
  · intro last found
    obtain rfl := Option.some.inj (isLast.symm.trans found)
    exact isAlphabetic_eq_false_of_mem_marks isMark

/-- Behind a piece neither digits nor a word go on. -/
theorem of_piece
    {before value after : List Char}
    {kind : TokenKind}
    (piece : IsPiece before kind value after) :
    IsTokenStart (before ++ value) after := by
  cases piece with
  | structural found =>
      have isMark := TokenKind.mem_marks_of_structural? found
      exact of_mark List.getLast?_singleton isMark before after
  | @string inner _ _ =>
      have closed : ('"' :: inner ++ ['"']).getLast? = some '"' := List.getLast?_concat
      exact of_mark closed (by decide) before after
  | unclosed _ => exact ⟨by simp [Splits], by simp [Splits]⟩
  | digits isRun =>
      refine ⟨isRun.splits, .of_last isRun.nonempty ?_ after⟩
      intro last isLast
      have digit := isRun.accepted last (List.mem_of_mem_getLast? isLast)
      exact isAlphabetic_eq_false_of_isDigit digit
  | word isRun =>
      refine ⟨.of_last isRun.nonempty ?_ after, isRun.splits⟩
      intro last isLast
      have alphabetic := isRun.accepted last (List.mem_of_mem_getLast? isLast)
      exact isDigit_eq_false_of_isAlphabetic alphabetic
  | stray _ _ noDigit notAlphabetic _ =>
      refine of_last (List.cons_ne_nil _ _) ?_ ?_ before after
      · simpa using noDigit
      · simpa using notAlphabetic

end IsTokenStart

/-! ## Every text has a tiling -/

/-- Some piece begins with a given character that is no blank. -/
theorem exists_isPiece
    {before text : List Char}
    {first : Char}
    (starts : IsTokenStart before (first :: text))
    (noBlank : isBlank first = false) :
    ∃ kind value after, first :: text = value ++ after ∧ IsPiece before kind value after := by
  cases found : TokenKind.structural? first with
  | some kind => exact ⟨kind, [first], text, rfl, .structural found⟩
  | none =>
      by_cases quote : first = '"'
      · subst quote
        have parted := (List.takeWhile_append_dropWhile (p := (· != '"')) (l := text)).symm
        have noQuote : '"' ∉ text.takeWhile (· != '"') := by
          intro listed
          simpa using List.mem_takeWhile_imp listed
        have ends := head?_dropWhile_ends (· != '"') text
        cases behind : text.dropWhile (· != '"') with
        | nil =>
            rw [behind, List.append_nil] at parted
            rw [← parted] at noQuote
            exact ⟨_, _, [], (List.append_nil _).symm, .unclosed noQuote⟩
        | cons next after =>
            rw [behind] at parted ends
            obtain rfl : next = '"' := by simpa using ends next rfl
            refine ⟨_, _, after, ?_, .string noQuote⟩
            simpa using parted
      · by_cases digit : first.isDigit = true
        · have isRun := isRun_takeWhile starts.digits digit
          exact ⟨_, _, _, List.takeWhile_append_dropWhile.symm, .digits isRun⟩
        · by_cases alphabetic : isAlphabetic first = true
          · have isRun := isRun_takeWhile starts.word alphabetic
            exact ⟨_, _, _, List.takeWhile_append_dropWhile.symm, .word isRun⟩
          · exact ⟨_, [first], text, rfl, .stray found quote (Bool.eq_false_iff.mpr digit)
              (Bool.eq_false_iff.mpr alphabetic) noBlank⟩

/-- Where a token may begin, the rest of a source has a tiling. -/
theorem exists_tiles
    {before text : List Char}
    (starts : IsTokenStart before text) :
    ∃ tokens, Tiles before text tokens := by
  -- Behind a piece less of the text is left, so its length carries the induction.
  induction length : text.length using Nat.strong_induction_on generalizing before text with
  | h length inductionHypothesis =>
      subst length
      have blank : ∀ c ∈ text.takeWhile isBlank, isBlank c = true :=
        fun c => List.mem_takeWhile_imp
      have parted := (List.takeWhile_append_dropWhile (p := isBlank) (l := text)).symm
      generalize text.takeWhile isBlank = blanks at blank parted
      have ends := head?_dropWhile_ends isBlank text
      cases behind : text.dropWhile isBlank with
      | nil =>
          rw [behind, List.append_nil] at parted
          subst parted
          exact ⟨_, .finish blank⟩
      | cons first others =>
          rw [behind] at parted ends
          subst parted
          obtain ⟨kind, value, after, same, piece⟩ :=
            exists_isPiece (starts.of_blanks blank) (ends first rfl)
          have shorter : after.length < (blanks ++ first :: others).length := by
            have := List.length_pos_iff.mpr piece.value_ne_nil
            rw [same, List.length_append, List.length_append]
            omega
          have starts' := IsTokenStart.of_piece piece
          rw [List.append_assoc] at starts'
          obtain ⟨tokens, tiles⟩ := inductionHypothesis after.length shorter starts' rfl
          rw [same]
          exact ⟨_, .piece blank piece tiles⟩

end Covenant
