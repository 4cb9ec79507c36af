import Covenant.Proofs.Source.Grammar
import Covenant.Proofs.Source.LineBreaks
import Covenant.Source.Diagnostic
import Mathlib.Data.List.Forall2

/-!
# Flaws of a source

A diagnostic gives the reason why a token is invalid, and it finds the reason in the first
character of the token's text alone.  The reason for which the scanner refused the text lies
in the source, in the characters around the text as well: digits were cut off, a word is
unknown, or a character begins no token.  Both are the same.  The flaws of a source are
described here by its characters, without a scanner (`Place.IsFlawOf`), and the diagnostics
of its tokens are just its flaws, from the front to the back
(`exists_isExplained`).
-/

namespace Covenant

/-- A text with what stands before it and behind it in a source. -/
structure Place where
  before : List Char
  text : List Char
  after : List Char

open Diagnostic (Reason)

namespace Place

/-- Why the text of a place is no token. -/
inductive IsFlawed : Reason → Place → Prop
  | cutOff {before run after : List Char} {next : Char} :
      IsRun Char.isDigit before run (next :: after) →
      isLetter next = true ∨ isPunctuation next = true →
      IsFlawed .invalidInteger ⟨before, run, next :: after⟩
  | unknown {before run after : List Char} :
      IsRun isAlphabetic before run after →
      String.ofList run ∉ keywords →
      IsFlawed .unknownKeyword ⟨before, run, after⟩
  /-- A single character that belongs to no class. -/
  | stray {before after : List Char} {c : Char} :
      TokenKind.structural? c = none →
      c ≠ '"' →
      c.isDigit = false →
      isAlphabetic c = false →
      isBlank c = false →
      IsFlawed .unexpectedCharacter ⟨before, [c], after⟩

/-- A place at which a source has a flaw.  Inside of quoted texts there are none, and a
place is inside of one if an odd number of quotes stands before it. -/
structure IsFlawOf (source : List Char) (reason : Reason) (place : Place) : Prop where
  source_eq : source = place.before ++ (place.text ++ place.after)
  outside : place.before.count '"' % 2 = 0
  isFlawed : place.IsFlawed reason

end Place

/-! ## Flaws and pieces -/

section

variable {before value after : List Char} {kind : TokenKind}

/-- Behind the same text the same tokens tile a text. -/
theorem Tiles.eq_of_tiles
    {text : List Char}
    {tokens others : List Token}
    (tiles : Tiles before text tokens)
    (tilesOther : Tiles before text others) :
    tokens = others := by
  have given {tokens : List Token} (tiles : Tiles before text tokens) :
      TokenStream.items ⟨⟨text.map .char, .advanceOver .start before, none⟩, false⟩ =
        tokens.map .ok :=
    TokenStream.items_of_tiles tiles rfl rfl
  have same := (given tiles).symm.trans (given tilesOther)
  exact List.map_injective_iff.mpr (fun _ _ => Except.ok.inj) same

/-- At one place of a source there is one piece. -/
theorem IsPiece.eq_of_isPiece
    {value' after' : List Char}
    {kind' : TokenKind}
    (piece : IsPiece before kind value after)
    (piece' : IsPiece before kind' value' after')
    (same : value ++ after = value' ++ after') :
    kind = kind' ∧ value = value' ∧ after = after' := by
  have exists_tiles_cons {kind : TokenKind} {value after : List Char}
      (piece : IsPiece before kind value after) :
      ∃ position tokens, Tiles before (value ++ after)
        (⟨kind, String.ofList value, position⟩ :: tokens) := by
    obtain ⟨tokens, tiles⟩ := exists_tiles (.of_piece piece)
    have first : IsPiece (before ++ []) kind value after := by rwa [List.append_nil]
    exact ⟨_, tokens, @Tiles.piece _ [] _ _ _ _ (by simp) first tiles⟩
  obtain ⟨_, _, tiles⟩ := exists_tiles_cons piece
  obtain ⟨_, _, tiles'⟩ := exists_tiles_cons piece'
  rw [← same] at tiles'
  have tokens := (List.cons.inj (tiles.eq_of_tiles tiles')).1
  obtain rfl : value = value' := String.ofList_inj.mp (congrArg Token.value tokens)
  exact ⟨congrArg Token.kind tokens, rfl, List.append_cancel_left same⟩

theorem IsPiece.exists_isFlawed
    (piece : IsPiece before kind value after)
    (invalid : kind = .invalid) :
    ∃ reason, Place.IsFlawed reason ⟨before, value, after⟩ := by
  cases piece with
  | structural found => exact absurd invalid (TokenKind.ne_of_structural? found).2.2
  | string => cases invalid
  | unclosed => cases invalid
  | digits isRun =>
      split at invalid
      · rename_i broken
        cases after with
        | nil => cases broken
        | cons next after => exact ⟨_, .cutOff isRun (by simpa using broken)⟩
      · cases invalid
  | word isRun =>
      split at invalid
      · cases invalid
      · rename_i unknown
        exact ⟨_, .unknown isRun unknown⟩
  | stray noStructure noQuote noDigit notAlphabetic noBlank =>
      exact ⟨_, .stray noStructure noQuote noDigit notAlphabetic noBlank⟩

end

namespace Place.IsFlawed

variable {reason reason' : Reason} {place : Place}

theorem isPiece (isFlawed : place.IsFlawed reason) :
    IsPiece place.before .invalid place.text place.after := by
  cases isFlawed with
  | @cutOff _ _ _ next isRun breaks =>
      have piece := IsPiece.digits isRun
      have broken : (isLetter next || isPunctuation next) = true := by simpa using breaks
      rwa [List.head?_cons, Option.any_some, if_pos broken] at piece
  | unknown isRun unknown =>
      have piece := IsPiece.word isRun
      rwa [if_neg unknown] at piece
  | stray noStructure noQuote noDigit notAlphabetic noBlank =>
      exact .stray noStructure noQuote noDigit notAlphabetic noBlank

/-- The first character of a flawed text belongs to the class that the reason names. -/
theorem ofText_eq (isFlawed : place.IsFlawed reason) :
    Reason.ofText (String.ofList place.text) = reason := by
  rw [Reason.ofText, String.toList_ofList]
  cases isFlawed with
  | cutOff isRun =>
      obtain ⟨first, others, rfl⟩ := List.exists_cons_of_ne_nil isRun.nonempty
      simp [isRun.accepted first List.mem_cons_self]
  | unknown isRun =>
      obtain ⟨first, others, rfl⟩ := List.exists_cons_of_ne_nil isRun.nonempty
      have alphabetic := isRun.accepted first List.mem_cons_self
      simp [isDigit_eq_false_of_isAlphabetic alphabetic, alphabetic]
  | stray _ _ noDigit notAlphabetic _ => simp [noDigit, notAlphabetic]

/-- A text is flawed for one reason. -/
theorem reason_eq
    (isFlawed : place.IsFlawed reason)
    (isFlawed' : place.IsFlawed reason') :
    reason = reason' :=
  isFlawed.ofText_eq.symm.trans isFlawed'.ofText_eq

end Place.IsFlawed

/-! ## Where flaws stand -/

section

variable {before value after : List Char} {kind : TokenKind}

theorem IsRun.splits_front
    {accept : Char → Bool}
    {run : List Char}
    (isRun : IsRun accept before run after) :
    Splits accept before (run ++ after) := by
  intro last isLast _ _ accepted
  rw [isRun.begins last isLast] at accepted
  contradiction

/-- A text that begins with a character of neither class is no part of digits or a word. -/
theorem IsTokenStart.of_first
    {first : Char}
    (noDigit : first.isDigit = false)
    (notAlphabetic : isAlphabetic first = false)
    (before others : List Char) :
    IsTokenStart before (first :: others) where
  digits := by
    intro _ _ next isNext _
    rwa [← Option.some.inj isNext]
  word := by
    intro _ _ next isNext _
    rwa [← Option.some.inj isNext]

/-- No digits and no word go on where a piece begins. -/
theorem IsPiece.isTokenStart
    (piece : IsPiece before kind value after) :
    IsTokenStart before (value ++ after) := by
  cases piece with
  | structural found =>
      have mark := TokenKind.mem_marks_of_structural? found
      exact .of_first (isDigit_eq_false_of_mem_marks mark) (isAlphabetic_eq_false_of_mem_marks mark)
        before after
  | string =>
      exact .of_first (by decide) (isAlphabetic_eq_false_of_mem_marks (by decide)) before _
  | unclosed =>
      exact .of_first (by decide) (isAlphabetic_eq_false_of_mem_marks (by decide)) before _
  | digits isRun =>
      obtain ⟨first, others, rfl⟩ := List.exists_cons_of_ne_nil isRun.nonempty
      have digit := isRun.accepted first List.mem_cons_self
      refine ⟨isRun.splits_front, fun _ _ next isNext _ => ?_⟩
      obtain rfl := Option.some.inj isNext
      exact isAlphabetic_eq_false_of_isDigit digit
  | word isRun =>
      obtain ⟨first, others, rfl⟩ := List.exists_cons_of_ne_nil isRun.nonempty
      have alphabetic := isRun.accepted first List.mem_cons_self
      refine ⟨fun _ _ next isNext _ => ?_, isRun.splits_front⟩
      obtain rfl := Option.some.inj isNext
      exact isDigit_eq_false_of_isAlphabetic alphabetic
  | stray _ _ noDigit notAlphabetic _ => exact .of_first noDigit notAlphabetic before after

/-- A run goes on everywhere inside. -/
theorem IsRun.not_splits_inside
    {accept : Char → Bool}
    {front rest : List Char}
    (isRun : IsRun accept before (front ++ rest) after)
    (begun : front ≠ [])
    (nonempty : rest ≠ []) :
    ¬Splits accept (before ++ front) (rest ++ after) := by
  obtain ⟨next, others, rfl⟩ := List.exists_cons_of_ne_nil nonempty
  intro splits
  have isLast : front.getLast begun ∈ (before ++ front).getLast? := by
    rw [List.getLast?_append_of_ne_nil _ begun]
    exact List.getLast?_eq_some_getLast begun
  have acceptedLast := isRun.accepted _ (List.mem_append_left _ (List.getLast_mem begun))
  have refused := splits _ isLast next rfl acceptedLast
  rw [isRun.accepted next (by simp)] at refused
  contradiction

/-- Only the quote that opens a quoted text stands in front of the places inside. -/
theorem count_quote_of_opened
    {front rest inner : List Char}
    (noQuote : '"' ∉ inner)
    (parted : '"' :: inner = front ++ rest)
    (begun : front ≠ []) :
    front.count '"' = 1 := by
  obtain ⟨first, others, rfl⟩ := List.exists_cons_of_ne_nil begun
  obtain ⟨rfl, rfl⟩ := List.cons.inj parted
  rw [List.count_cons_self, List.count_eq_zero.mpr fun listed =>
    noQuote (List.mem_append_left _ listed)]

/-- Inside of a piece no other one begins, unless the piece is a quoted text. -/
theorem IsPiece.not_isTokenStart_or_inside
    {front rest : List Char}
    (piece : IsPiece before kind value after)
    (parted : value = front ++ rest)
    (begun : front ≠ [])
    (nonempty : rest ≠ []) :
    ¬IsTokenStart (before ++ front) (rest ++ after) ∨ front.count '"' % 2 = 1 := by
  have not_singleton (c : Char) : [c] ≠ front ++ rest := by
    intro same
    have lengths := congrArg List.length same
    have := List.length_pos_iff.mpr begun
    have := List.length_pos_iff.mpr nonempty
    rw [List.length_singleton, List.length_append] at lengths
    omega
  cases piece with
  | structural => exact absurd parted (not_singleton _)
  | string noQuote =>
      obtain ⟨others, last, rfl⟩ := (List.eq_nil_or_concat' rest).resolve_left nonempty
      rw [← List.append_assoc] at parted
      have opened := count_quote_of_opened noQuote (List.append_inj' parted rfl).1 begun
      exact .inr (by rw [opened])
  | unclosed noQuote => exact .inr (by rw [count_quote_of_opened noQuote parted begun])
  | digits isRun =>
      subst parted
      exact .inl fun starts => isRun.not_splits_inside begun nonempty starts.digits
  | word isRun =>
      subst parted
      exact .inl fun starts => isRun.not_splits_inside begun nonempty starts.word
  | stray => exact absurd parted (not_singleton _)

theorem IsPiece.isBlank_eq_false_of_cons
    (piece : IsPiece before kind value after)
    {first : Char}
    {others : List Char}
    (same : value ++ after = first :: others) :
    isBlank first = false := by
  obtain ⟨c, value, rfl⟩ := List.exists_cons_of_ne_nil piece.value_ne_nil
  obtain ⟨rfl, _⟩ := List.cons.inj same
  exact piece.isBlank_head_eq_false c rfl

/-- Behind a place where a piece begins, a flaw of the source is this piece, or it stands
behind the piece. -/
theorem IsPiece.eq_or_isPrefix_of_isFlawOf
    {blanks : List Char}
    (blank : ∀ c ∈ blanks, isBlank c = true)
    (piece : IsPiece (before ++ blanks) kind value after)
    (outside : before.count '"' % 2 = 0)
    {place : Place}
    {reason : Reason}
    (isFlaw : place.IsFlawOf (before ++ (blanks ++ (value ++ after))) reason)
    (behind : before <+: place.before) :
    (kind = .invalid ∧ place = ⟨before ++ blanks, value, after⟩) ∨
      before ++ (blanks ++ value) <+: place.before := by
  obtain ⟨source_eq, isOutside, isFlawed⟩ := isFlaw
  obtain ⟨_, text, rest⟩ := place
  obtain ⟨front, rfl⟩ := behind
  have flawPiece : IsPiece (before ++ front) .invalid text rest := isFlawed.isPiece
  have source_eq : blanks ++ (value ++ after) = front ++ (text ++ rest) :=
    List.append_cancel_left (source_eq.trans (List.append_assoc ..))
  have atPiece (together : front = blanks) :
      kind = .invalid ∧
        (⟨before ++ front, text, rest⟩ : Place) = ⟨before ++ blanks, value, after⟩ := by
    subst together
    obtain ⟨rfl, rfl, rfl⟩ := piece.eq_of_isPiece flawPiece (List.append_cancel_left source_eq)
    exact ⟨rfl, rfl⟩
  rcases List.append_eq_append_iff.mp source_eq with ⟨inside, rfl, same⟩ | ⟨others, rfl, same⟩
  · rcases List.append_eq_append_iff.mp same with ⟨further, rfl, _⟩ | ⟨others, rfl, begins⟩
    · exact .inr ⟨further, by simp⟩
    · by_cases begun : inside = []
      · exact .inl (atPiece (by rw [begun, List.append_nil]))
      · by_cases atEnd : others = []
        · exact .inr ⟨[], by simp [atEnd]⟩
        · exfalso
          have starts := flawPiece.isTokenStart
          rw [begins, ← List.append_assoc] at starts
          rw [List.count_append, List.count_append, count_quote_of_blank blank] at isOutside
          rcases piece.not_isTokenStart_or_inside rfl begun atEnd with noStart | opened
          · exact noStart starts
          · omega
  · cases others with
    | nil => exact .inl (atPiece (List.append_nil _).symm)
    | cons first others =>
        have noBlank := flawPiece.isBlank_eq_false_of_cons same
        rw [blank first (by simp)] at noBlank
        contradiction

/-- Behind a place where a piece begins, the flaws of the source are the piece, if it is
invalid, and those behind the piece. -/
theorem IsPiece.exists_isFlawOf_iff
    {blanks : List Char}
    (blank : ∀ c ∈ blanks, isBlank c = true)
    (piece : IsPiece (before ++ blanks) kind value after)
    (outside : before.count '"' % 2 = 0)
    (place : Place) :
    (before <+: place.before ∧
        ∃ reason, place.IsFlawOf (before ++ (blanks ++ (value ++ after))) reason) ↔
      (kind = .invalid ∧ place = ⟨before ++ blanks, value, after⟩) ∨
        (before ++ (blanks ++ value) <+: place.before ∧
          ∃ reason, place.IsFlawOf (before ++ (blanks ++ (value ++ after))) reason) := by
  constructor
  · rintro ⟨behind, reason, isFlaw⟩
    rcases piece.eq_or_isPrefix_of_isFlawOf blank outside isFlaw behind with same | further
    · exact .inl same
    · exact .inr ⟨further, reason, isFlaw⟩
  · rintro (⟨invalid, rfl⟩ | ⟨further, isFlaw⟩)
    · obtain ⟨reason, isFlawed⟩ := piece.exists_isFlawed invalid
      refine ⟨List.prefix_append .., reason, (List.append_assoc ..).symm, ?_, isFlawed⟩
      rw [List.count_append, count_quote_of_blank blank, Nat.add_zero, outside]
    · exact ⟨(List.prefix_append ..).trans further, isFlaw⟩

/-- Blanks have no flaws. -/
theorem Place.IsFlawOf.not_isPrefix_of_blank
    {blanks : List Char}
    (blank : ∀ c ∈ blanks, isBlank c = true)
    {place : Place}
    {reason : Reason}
    (isFlaw : place.IsFlawOf (before ++ blanks) reason) :
    ¬before <+: place.before := by
  obtain ⟨source_eq, _, isFlawed⟩ := isFlaw
  obtain ⟨_, text, rest⟩ := place
  rintro ⟨front, rfl⟩
  have flawPiece : IsPiece (before ++ front) .invalid text rest := isFlawed.isPiece
  have blanks_eq : blanks = front ++ (text ++ rest) :=
    List.append_cancel_left (source_eq.trans (List.append_assoc ..))
  obtain ⟨first, others, same⟩ := List.exists_cons_of_ne_nil
    (List.append_ne_nil_of_left_ne_nil flawPiece.value_ne_nil rest)
  have noBlank := flawPiece.isBlank_eq_false_of_cons same
  rw [blank first (by simp [blanks_eq, same])] at noBlank
  contradiction

end

/-- A token has the text of a place and the position of the last character there. -/
structure Token.StandsAt (token : Token) (place : Place) : Prop where
  value : token.value = String.ofList place.text
  position : token.position = .behind (place.before ++ place.text)

/-- Behind where a tiling begins, the invalid tokens stand at the flaws of the source. -/
theorem Tiles.exists_places
    {before text : List Char}
    {tokens : List Token}
    (tiles : Tiles before text tokens)
    (outside : text ≠ [] → before.count '"' % 2 = 0) :
    ∃ places,
      List.Forall₂ Token.StandsAt (tokens.filter fun token => token.kind = .invalid) places ∧
      (∀ place, place ∈ places ↔
        before <+: place.before ∧ ∃ reason, place.IsFlawOf (before ++ text) reason) ∧
      places.Pairwise fun earlier later => earlier.before.length < later.before.length := by
  induction tiles with
  | @finish before blanks blank =>
      refine ⟨[], .nil, fun place => ?_, .nil⟩
      simp only [List.not_mem_nil, false_iff]
      rintro ⟨behind, reason, isFlaw⟩
      exact isFlaw.not_isPrefix_of_blank blank behind
  | @piece before blanks value after kind tokens blank piece tiles inductionHypothesis =>
      have isOutside : before.count '"' % 2 = 0 := outside (by simp [piece.value_ne_nil])
      have outsideBehind : after ≠ [] → (before ++ (blanks ++ value)).count '"' % 2 = 0 := by
        intro followed
        rw [List.count_append, List.count_append, count_quote_of_blank blank]
        rcases piece.count_quote with ⟨_, atEnd⟩ | even
        · exact absurd atEnd followed
        · omega
      obtain ⟨places, standAt, mem_iff, ordered⟩ := inductionHypothesis outsideBehind
      have sameSource : before ++ (blanks ++ value) ++ after =
          before ++ (blanks ++ (value ++ after)) := by simp
      rw [sameSource] at mem_iff
      have position : Position.start.advanceOver (before ++ (blanks ++ value)) =
          .behind (before ++ blanks ++ value) := by
        rw [Position.start_advanceOver, List.append_assoc]
      by_cases invalid : kind = .invalid
      · refine ⟨⟨before ++ blanks, value, after⟩ :: places, ?_, fun place => ?_, ?_⟩
        · rw [List.filter_cons_of_pos (by simpa using invalid)]
          exact .cons ⟨rfl, position⟩ standAt
        · rw [List.mem_cons, mem_iff, piece.exists_isFlawOf_iff blank isOutside,
            and_iff_right invalid]
        · refine List.pairwise_cons.mpr ⟨fun later listed => ?_, ordered⟩
          have longer := ((mem_iff later).mp listed).1.length_le
          have := List.length_pos_iff.mpr piece.value_ne_nil
          simp only [List.length_append] at longer ⊢
          omega
      · refine ⟨places, ?_, fun place => ?_, ordered⟩
        · rwa [List.filter_cons_of_neg (by simpa using invalid)]
        · rw [mem_iff, piece.exists_isFlawOf_iff blank isOutside,
            or_iff_right fun both => invalid both.1]

/-! ## Diagnostics -/

namespace Diagnostic

/-- The place of a diagnostic. -/
def position (diagnostic : Diagnostic) : Position :=
  ⟨diagnostic.line, diagnostic.column⟩

/-- What a diagnostic says of an invalid token. -/
def explaining (token : Token) : Diagnostic where
  value := token.value
  line := token.position.line
  column := token.position.column
  message := (Reason.ofText token.value).wording ++ " '" ++ token.value ++ "'"

/-- A diagnostic has the text and the position of a token. -/
structure Describes (diagnostic : Diagnostic) (token : Token) : Prop where
  value : diagnostic.value = token.value
  position : diagnostic.position = token.position

theorem describes_explaining (token : Token) : (explaining token).Describes token :=
  ⟨rfl, rfl⟩

/-- The message of a diagnostic gives a reason exactly if the text at a place is no token
for that reason. -/
structure NamesReason (diagnostic : Diagnostic) (place : Place) : Prop where
  invalidInteger :
    diagnostic.message = "invalid integer literal '" ++ diagnostic.value ++ "'" ↔
      place.IsFlawed .invalidInteger
  unknownKeyword :
    diagnostic.message = "unknown keyword '" ++ diagnostic.value ++ "'" ↔
      place.IsFlawed .unknownKeyword
  unexpectedCharacter :
    diagnostic.message = "unexpected character '" ++ diagnostic.value ++ "'" ↔
      place.IsFlawed .unexpectedCharacter

theorem wording_injective : Function.Injective Reason.wording := by
  intro reason reason'
  cases reason <;> cases reason' <;> decide

theorem namesReason_explaining
    {token : Token}
    {place : Place}
    (standsAt : token.StandsAt place)
    {reason : Reason}
    (isFlawed : place.IsFlawed reason) :
    (explaining token).NamesReason place := by
  have names (reason' : Reason) :
      (explaining token).message = reason'.wording ++ " '" ++ (explaining token).value ++ "'" ↔
        place.IsFlawed reason' := by
    have found : Reason.ofText token.value = reason := standsAt.value ▸ isFlawed.ofText_eq
    have message : (explaining token).message =
        reason.wording ++ " '" ++ (explaining token).value ++ "'" := by
      rw [explaining, found]
    rw [message, String.append_left_inj, String.append_left_inj, String.append_left_inj]
    constructor
    · intro same
      exact wording_injective same ▸ isFlawed
    · intro isFlawed'
      rw [isFlawed.reason_eq isFlawed']
  exact ⟨names .invalidInteger, names .unknownKeyword, names .unexpectedCharacter⟩

end Diagnostic

/-- The diagnostics of tokens are those of the invalid tokens. -/
theorem diagnostics_eq_map (tokens : List Token) :
    diagnostics tokens =
      (tokens.filter fun token => token.kind = .invalid).map Diagnostic.explaining := by
  induction tokens with
  | nil => rfl
  | cons token tokens inductionHypothesis =>
      rw [diagnostics] at inductionHypothesis ⊢
      by_cases invalid : token.kind = .invalid
      · rw [List.filter_cons_of_pos (by simpa using invalid), List.map_cons, ← inductionHypothesis]
        exact List.filterMap_cons_some (if_pos invalid)
      · rw [List.filter_cons_of_neg (by simpa using invalid), ← inductionHypothesis]
        exact List.filterMap_cons_none (if_neg invalid)

/-- Diagnostics explain the flaws of a source, given the places at which it has flaws. -/
structure IsExplained
    (source : List Char)
    (tokens : List Token)
    (places : List Place) :
    Prop where
  /-- There is one diagnostic for every invalid token, in the same order. -/
  describes :
    List.Forall₂ Diagnostic.Describes (diagnostics tokens)
      (tokens.filter fun token => token.kind = .invalid)
  /-- The invalid tokens stand at the places. -/
  standAt :
    List.Forall₂ Token.StandsAt (tokens.filter fun token => token.kind = .invalid) places
  /-- The places are all those at which the source has a flaw. -/
  mem_iff : ∀ place : Place, place ∈ places ↔ ∃ reason, place.IsFlawOf source reason
  /-- They are listed from the front to the back. -/
  ordered : places.Pairwise fun earlier later => earlier.before.length < later.before.length
  /-- Every message gives the reason for which the source is flawed at the place. -/
  namesReason : List.Forall₂ Diagnostic.NamesReason (diagnostics tokens) places
  /-- Positions ascend strictly as long as lines and columns are words. -/
  ascending : source.length < UInt32.size →
    (diagnostics tokens).Pairwise fun earlier later =>
      compare earlier.position later.position = .lt
  /-- There is no diagnostic exactly if the source has no flaw. -/
  eq_nil_iff : diagnostics tokens = [] ↔
    ∀ (place : Place) (reason : Reason), ¬place.IsFlawOf source reason

/-- The diagnostics of the tokens of a source are its flaws from the front to the back, each
with the text, the position and the reason. -/
theorem exists_isExplained (source : String) :
    ∃ tokens places, tokenize source = .ok tokens ∧ IsExplained source.toList tokens places := by
  obtain ⟨tokens, tiles⟩ := exists_tiles (.nil source.toList)
  obtain ⟨places, standAt, mem_iff, ordered⟩ := tiles.exists_places (by simp)
  have mem_iff (place : Place) :
      place ∈ places ↔ ∃ reason, place.IsFlawOf source.toList reason := by
    simpa using mem_iff place
  refine ⟨tokens, places, tiles.tokenize_eq_ok, ?_, standAt, mem_iff, ordered, ?_, ?_, ?_⟩
  · rw [diagnostics_eq_map, List.forall₂_map_left_iff]
    exact List.forall₂_same.mpr fun token _ => Diagnostic.describes_explaining token
  · rw [diagnostics_eq_map, List.forall₂_map_left_iff]
    have flawed : ∀ place ∈ places, ∃ reason, place.IsFlawed reason := fun place listed =>
      ((mem_iff place).mp listed).imp fun _ isFlaw => isFlaw.isFlawed
    have both := (List.forall₂_and_left _ _).mpr ⟨flawed, standAt.flip⟩
    exact both.flip.imp fun token place ⟨⟨_, isFlawed⟩, standsAt⟩ =>
      Diagnostic.namesReason_explaining standsAt isFlawed
  · intro short
    obtain ⟨pieces, last, rfl, isEnd, _, noEnd⟩ := tiles.exists_eq_concat
    obtain ⟨blocks, placed⟩ := tiles.exists_placed noEnd short
    have valid : last.kind ≠ .invalid := by
      rw [isEnd]
      exact TokenKind.noConfusion
    rw [diagnostics_eq_map, List.filter_append, List.filter_cons_of_neg (by simpa using valid),
      List.filter_nil, List.append_nil]
    exact List.pairwise_map.mpr (placed.ascending.filter _)
  · rw [diagnostics_eq_map, List.map_eq_nil_iff, ← List.length_eq_zero_iff, standAt.length_eq,
      List.length_eq_zero_iff, List.eq_nil_iff_forall_not_mem]
    simp only [mem_iff, not_exists]

example : (tokenize "4é \"5x\" 6,").map (fun tokens => (diagnostics tokens).map (·.message)) =
    .ok ["invalid integer literal '4'", "unknown keyword 'é'", "invalid integer literal '6'"] := by
  decide +kernel

end Covenant
