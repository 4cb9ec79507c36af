import Covenant.Proofs.Source.Scanning

/-!
# The lexical grammar

A well-formed source is a row of symbols with blanks around them: structural characters,
keywords, integers and quoted texts.  Blanks may be missing almost everywhere; they have to
stand behind an integer that another symbol follows, and between two keywords.  A source
is cut into tokens without an invalid one exactly if it is well-formed, and then the tokens
are its symbols (`tokenize_valid_iff`).
-/

namespace Covenant

/-- The symbols of the language, with their kinds. -/
inductive IsSymbol : TokenKind → List Char → Prop
  | structural {c : Char} {kind : TokenKind} :
      TokenKind.structural? c = some kind →
      IsSymbol kind [c]
  | keyword {word : String} :
      word ∈ keywords →
      IsSymbol .keyword word.toList
  | integer {digits : List Char} :
      digits ≠ [] →
      (∀ c ∈ digits, c.isDigit = true) →
      IsSymbol .integer digits
  | quoted {inner : List Char} :
      '"' ∉ inner →
      IsSymbol .string ('"' :: inner ++ ['"'])

/-- A symbol where it stands in a source. -/
structure Spaced where
  /-- The blanks in front of the symbol. -/
  blanks : List Char
  kind : TokenKind
  text : List Char

/-- One symbol may stand behind another: behind an integer, and between two keywords, only
if there are blanks. -/
def Spaced.Admits (symbol next : Spaced) : Prop :=
  (symbol.kind = .integer ∨ symbol.kind = .keyword ∧ next.kind = .keyword) → next.blanks ≠ []

/-- A source spells a row of symbols.  The last one may be a quoted text that is never
closed and reaches to the end of the source. -/
inductive Spells : List Spaced → List Char → Prop
  | finish {blanks : List Char} :
      (∀ c ∈ blanks, isBlank c = true) →
      Spells [] blanks
  | unclosed {blanks inner : List Char} :
      (∀ c ∈ blanks, isBlank c = true) →
      '"' ∉ inner →
      Spells [⟨blanks, .string, '"' :: inner⟩] (blanks ++ '"' :: inner)
  | symbol {symbol : Spaced} {symbols : List Spaced} {after : List Char} :
      (∀ c ∈ symbol.blanks, isBlank c = true) →
      IsSymbol symbol.kind symbol.text →
      (∀ next ∈ symbols.head?, symbol.Admits next) →
      Spells symbols after →
      Spells (symbol :: symbols) (symbol.blanks ++ (symbol.text ++ after))

/-! ## First characters of symbols -/

/-- Symbols of a kind may begin with a character.  Each begins with a character that no
integer goes on with, and only keywords begin with one that a keyword goes on with. -/
structure Begins (kind : TokenKind) (c : Char) : Prop where
  breaks : c.isDigit = true ∨ isLetter c = true ∨ isPunctuation c = true
  alphabetic : isAlphabetic c = true ↔ kind = .keyword

theorem Begins.of_mark
    {c : Char}
    (mark : CharSet.marks.contains c = true)
    {kind : TokenKind}
    (noKeyword : kind ≠ .keyword) :
    Begins kind c where
  breaks := .inr (.inr (isPunctuation_of_mem_marks mark))
  alphabetic := by simp [isAlphabetic_eq_false_of_mem_marks mark, noKeyword]

theorem isLetter_of_mem_keyword
    {word : String}
    (known : word ∈ keywords) :
    word.toList ≠ [] ∧ ∀ c ∈ word.toList, isLetter c = true := by
  have checked :
      keywords.all (fun word => !word.toList.isEmpty && word.toList.all isLetter) = true := by
    decide +kernel
  simpa using List.all_eq_true.mp checked word known

theorem TokenKind.ne_of_structural?
    {c : Char}
    {kind : TokenKind}
    (found : structural? c = some kind) :
    kind ≠ .integer ∧ kind ≠ .keyword ∧ kind ≠ .invalid := by
  unfold structural? at found
  split at found
  case h_6 => cases found
  all_goals
    obtain rfl := Option.some.inj found
    decide

namespace IsSymbol

variable {kind : TokenKind} {text : List Char}

theorem kind_ne_invalid (symbol : IsSymbol kind text) : kind ≠ .invalid := by
  cases symbol with
  | structural found => exact (TokenKind.ne_of_structural? found).2.2
  | _ => decide

theorem exists_begins (symbol : IsSymbol kind text) :
    ∃ c others, text = c :: others ∧ Begins kind c := by
  cases symbol with
  | @structural c _ found =>
      exact ⟨c, [], rfl, .of_mark (TokenKind.mem_marks_of_structural? found)
        (TokenKind.ne_of_structural? found).2.1⟩
  | @keyword word known =>
      obtain ⟨nonempty, letters⟩ := isLetter_of_mem_keyword known
      obtain ⟨first, others, same⟩ := List.exists_cons_of_ne_nil nonempty
      have letter := letters first (same ▸ List.mem_cons_self)
      exact ⟨first, others, same, .inr (.inl letter), by simp [isAlphabetic_of_isLetter letter]⟩
  | integer nonempty accepted =>
      obtain ⟨first, others, rfl⟩ := List.exists_cons_of_ne_nil nonempty
      have digit := accepted first List.mem_cons_self
      exact ⟨first, others, rfl, .inl digit, by simp [isAlphabetic_eq_false_of_isDigit digit]⟩
  | quoted _ => exact ⟨'"', _, rfl, .of_mark (by decide) (by decide)⟩

end IsSymbol

namespace Spells

variable {symbols : List Spaced} {text : List Char}

/-- A source begins with a blank, or it is blank altogether, or else its first symbol has no
blanks in front and the source begins as that symbol does. -/
theorem blank_or_begins (spells : Spells symbols text) :
    ((∀ c ∈ text.head?, isBlank c = true) ∧ ∀ next ∈ symbols.head?, next.blanks ≠ []) ∨
      ∃ next c others, next ∈ symbols.head? ∧ next.blanks = [] ∧ text = c :: others ∧
        Begins next.kind c := by
  have blank_head {blanks : List Char} (blank : ∀ c ∈ blanks, isBlank c = true) :
      ∀ c ∈ blanks.head?, isBlank c = true :=
    fun c isFirst => blank c (List.mem_of_mem_head? isFirst)
  cases spells with
  | finish blank => exact .inl ⟨blank_head blank, by simp⟩
  | @unclosed blanks inner blank _ =>
      cases blanks with
      | nil =>
          exact .inr ⟨_, '"', inner, rfl, rfl, rfl, .of_mark (by decide) TokenKind.noConfusion⟩
      | cons first blanks => exact .inl ⟨by simpa using blank_head blank, by simp⟩
  | @symbol symbol _ _ blank isSymbol _ _ =>
      obtain ⟨blanks, kind, text⟩ := symbol
      cases blanks with
      | nil =>
          obtain ⟨c, others, rfl, begins⟩ := isSymbol.exists_begins
          exact .inr ⟨_, c, _, rfl, rfl, rfl, begins⟩
      | cons first blanks => exact .inl ⟨by simpa using blank_head blank, by simp⟩

theorem kind_ne_invalid (spells : Spells symbols text) :
    ∀ symbol ∈ symbols, symbol.kind ≠ .invalid := by
  induction spells with
  | finish => simp
  | unclosed => simp
  | symbol _ isSymbol _ _ inductionHypothesis =>
      exact List.forall_mem_cons.mpr ⟨isSymbol.kind_ne_invalid, inductionHypothesis⟩

/-- Behind an integer nothing or a blank comes. -/
theorem isBlank_of_integer
    (spells : Spells symbols text)
    {symbol : Spaced}
    (admits : ∀ next ∈ symbols.head?, symbol.Admits next)
    (isInteger : symbol.kind = .integer) :
    ∀ c ∈ text.head?, isBlank c = true := by
  rcases spells.blank_or_begins with ⟨blank, _⟩ | ⟨next, c, others, isNext, touches, _, _⟩
  · exact blank
  · exact absurd touches (admits next isNext (.inl isInteger))

/-- Behind a keyword the word does not go on. -/
theorem isAlphabetic_of_keyword
    (spells : Spells symbols text)
    {symbol : Spaced}
    (admits : ∀ next ∈ symbols.head?, symbol.Admits next)
    (isKeyword : symbol.kind = .keyword) :
    ∀ c ∈ text.head?, isAlphabetic c = false := by
  rcases spells.blank_or_begins with ⟨blank, _⟩ | ⟨next, c, others, isNext, touches, rfl, begins⟩
  · exact fun c isFirst => isAlphabetic_eq_false_of_isBlank (blank c isFirst)
  · intro first isFirst
    obtain rfl := Option.some.inj isFirst
    apply Bool.eq_false_iff.mpr
    intro alphabetic
    exact admits next isNext (.inr ⟨isKeyword, begins.alphabetic.mp alphabetic⟩) touches

end Spells

/-! ## Symbols and pieces -/

/-- Where a token may begin, a symbol is a piece of the source if the text behind it does
not change what it is. -/
theorem IsSymbol.isPiece
    {kind : TokenKind}
    {text before after : List Char}
    (symbol : IsSymbol kind text)
    (starts : IsTokenStart before (text ++ after))
    (behindInteger : kind = .integer → ∀ c ∈ after.head?, isBlank c = true)
    (behindKeyword : kind = .keyword → ∀ c ∈ after.head?, isAlphabetic c = false) :
    IsPiece before kind text after := by
  cases symbol with
  | structural found => exact .structural found
  | quoted noQuote => exact .string noQuote
  | @keyword word known =>
      obtain ⟨nonempty, letters⟩ := isLetter_of_mem_keyword known
      have isRun : IsRun isAlphabetic before word.toList after :=
        starts.word.isRun nonempty (fun c listed => isAlphabetic_of_isLetter (letters c listed))
          (behindKeyword rfl)
      have piece := IsPiece.word isRun
      rwa [String.ofList_toList, if_pos known] at piece
  | integer nonempty accepted =>
      have blank := behindInteger rfl
      have isRun : IsRun Char.isDigit before text after := by
        refine starts.digits.isRun nonempty accepted fun c isFirst => ?_
        apply Bool.eq_false_iff.mpr
        intro digit
        have noBlank := isBlank_eq_false_of_isDigit digit
        rw [blank c isFirst] at noBlank
        contradiction
      have unbroken : after.head?.any (fun c => isLetter c || isPunctuation c) = false := by
        cases after with
        | nil => rfl
        | cons next after =>
            have blank := blank next rfl
            simp [isLetter_eq_false_of_isBlank blank, isPunctuation_eq_false_of_isBlank blank]
      have piece := IsPiece.digits isRun
      rwa [unbroken] at piece

namespace IsPiece

variable {before value after : List Char} {kind : TokenKind}

/-- A piece that is not invalid is a symbol, or else a quoted text that is never closed. -/
theorem isSymbol_or_unclosed
    (piece : IsPiece before kind value after)
    (valid : kind ≠ .invalid) :
    IsSymbol kind value ∨
      (after = [] ∧ kind = .string ∧ ∃ inner, '"' ∉ inner ∧ value = '"' :: inner) := by
  cases piece with
  | structural found => exact .inl (.structural found)
  | string noQuote => exact .inl (.quoted noQuote)
  | unclosed noQuote => exact .inr ⟨rfl, rfl, _, noQuote, rfl⟩
  | digits isRun =>
      split at valid
      · contradiction
      · rename_i unbroken
        rw [if_neg unbroken]
        exact .inl (.integer isRun.nonempty isRun.accepted)
  | word isRun =>
      split at valid
      · rename_i known
        have symbol := IsSymbol.keyword known
        rw [String.toList_ofList] at symbol
        rw [if_pos known]
        exact .inl symbol
      · contradiction
  | stray => contradiction

/-- Behind an integer no character comes that would go on with it or break it. -/
theorem unbroken_of_integer
    (piece : IsPiece before kind value after)
    (isInteger : kind = .integer) :
    ∀ c ∈ after.head?, c.isDigit = false ∧ isLetter c = false ∧ isPunctuation c = false := by
  cases piece with
  | structural found => exact absurd isInteger (TokenKind.ne_of_structural? found).1
  | digits isRun =>
      intro c isFirst
      split at isInteger
      · cases isInteger
      · rename_i unbroken
        have whole := isRun.ends c isFirst
        simp_all
  | word => split at isInteger <;> cases isInteger
  | _ => cases isInteger

/-- Behind a keyword the word does not go on. -/
theorem isAlphabetic_of_keyword
    (piece : IsPiece before kind value after)
    (isKeyword : kind = .keyword) :
    ∀ c ∈ after.head?, isAlphabetic c = false := by
  cases piece with
  | structural found => exact absurd isKeyword (TokenKind.ne_of_structural? found).2.1
  | digits => split at isKeyword <;> cases isKeyword
  | word isRun => exact isRun.ends
  | _ => cases isKeyword

/-- What is spelled behind a piece may stand behind it. -/
theorem admits
    (piece : IsPiece before kind value after)
    {symbols : List Spaced}
    (spells : Spells symbols after)
    (blanks : List Char) :
    ∀ next ∈ symbols.head?, Spaced.Admits ⟨blanks, kind, value⟩ next := by
  intro next isNext required touches
  rcases spells.blank_or_begins with ⟨_, spaced⟩ | ⟨_, c, others, isFirst, _, rfl, begins⟩
  · exact spaced next isNext touches
  obtain rfl := Option.some.inj (isNext.symm.trans isFirst)
  rcases required with isInteger | ⟨isKeyword, nextIsKeyword⟩
  · obtain ⟨noDigit, noLetter, noPunctuation⟩ := piece.unbroken_of_integer isInteger c rfl
    simpa [noDigit, noLetter, noPunctuation] using begins.breaks
  · have ends := piece.isAlphabetic_of_keyword isKeyword c rfl
    rw [begins.alphabetic.mpr nextIsKeyword] at ends
    contradiction

end IsPiece

/-- The kind and the text of a token. -/
def Token.shape (token : Token) : TokenKind × String :=
  (token.kind, token.value)

/-- The kind and the text of a symbol. -/
def Spaced.shape (symbol : Spaced) : TokenKind × String :=
  (symbol.kind, String.ofList symbol.text)

/-- Where a token may begin, a row of symbols is tiled by tokens of its own shapes. -/
theorem Spells.exists_tiles
    {symbols : List Spaced}
    {text : List Char}
    (spells : Spells symbols text)
    {before : List Char}
    (starts : IsTokenStart before text) :
    ∃ tokens, Tiles before text tokens ∧
      tokens.map Token.shape = symbols.map Spaced.shape ++ [(.endOfInput, "")] := by
  induction spells generalizing before with
  | finish blank => exact ⟨_, .finish blank, rfl⟩
  | @unclosed blanks inner blank noQuote =>
      have ends : Tiles (before ++ (blanks ++ '"' :: inner)) [] _ := .finish (by simp)
      have tiles := Tiles.piece blank (.unclosed noQuote) ends
      rw [List.append_nil] at tiles
      exact ⟨_, tiles, rfl⟩
  | @symbol symbol symbols after blank isSymbol admits spells inductionHypothesis =>
      have piece := isSymbol.isPiece (starts.of_blanks blank)
        (spells.isBlank_of_integer admits) (spells.isAlphabetic_of_keyword admits)
      have starts' := IsTokenStart.of_piece piece
      rw [List.append_assoc] at starts'
      obtain ⟨tokens, tiles, shapes⟩ := inductionHypothesis starts'
      exact ⟨_, .piece blank piece tiles, by simp [shapes, Token.shape, Spaced.shape]⟩

/-- A text that is tiled without an invalid token spells a row of symbols. -/
theorem Tiles.exists_spells
    {before text : List Char}
    {tokens : List Token}
    (tiles : Tiles before text tokens)
    (valid : ∀ token ∈ tokens, token.kind ≠ .invalid) :
    ∃ symbols, Spells symbols text := by
  induction tiles with
  | finish blank => exact ⟨[], .finish blank⟩
  | @piece before blanks value after kind tokens blank piece _ inductionHypothesis =>
      obtain ⟨validHead, validTail⟩ := List.forall_mem_cons.mp valid
      rcases piece.isSymbol_or_unclosed validHead with isSymbol | ⟨rfl, _, inner, noQuote, rfl⟩
      · obtain ⟨symbols, spells⟩ := inductionHypothesis validTail
        exact ⟨⟨blanks, kind, value⟩ :: symbols,
          .symbol blank isSymbol (piece.admits spells blanks) spells⟩
      · rw [List.append_nil]
        exact ⟨_, .unclosed blank noQuote⟩

/-- A source is cut into tokens without an invalid one exactly if it spells a row of
symbols.  Then the tokens in front of the end token are these symbols, in their order and
with their kinds and texts. -/
theorem tokenize_valid_iff (source : String) :
    ∃ pieces last, tokenize source = .ok (pieces ++ [last]) ∧
      last.kind = .endOfInput ∧ (∀ token ∈ pieces, token.kind ≠ .endOfInput) ∧
      ((∀ token ∈ pieces ++ [last], token.kind ≠ .invalid) ↔
        ∃ symbols, Spells symbols source.toList) ∧
      ∀ symbols, Spells symbols source.toList →
        pieces.map Token.shape = symbols.map Spaced.shape := by
  obtain ⟨tokens, tiles⟩ := Covenant.exists_tiles (.nil source.toList)
  obtain ⟨pieces, last, rfl, isEnd, _, noEnd⟩ := tiles.exists_eq_concat
  have cut := tiles.tokenize_eq_ok
  have shapes : ∀ symbols, Spells symbols source.toList →
      pieces.map Token.shape = symbols.map Spaced.shape := by
    intro symbols spells
    obtain ⟨other, otherTiles, shapes⟩ := spells.exists_tiles (.nil _)
    obtain rfl := Except.ok.inj (otherTiles.tokenize_eq_ok.symm.trans cut)
    rw [List.map_append] at shapes
    exact (List.append_inj' shapes rfl).1
  refine ⟨pieces, last, cut, isEnd, noEnd, ⟨tiles.exists_spells, ?_⟩, shapes⟩
  rintro ⟨symbols, spells⟩ token listed
  rcases List.mem_append.mp listed with inside | isLast
  · have shaped : token.shape ∈ symbols.map Spaced.shape :=
      shapes symbols spells ▸ List.mem_map_of_mem inside
    obtain ⟨symbol, symbolListed, same⟩ := List.mem_map.mp shaped
    have sameKind : symbol.kind = token.kind := congrArg Prod.fst same
    exact sameKind ▸ spells.kind_ne_invalid symbol symbolListed
  · rw [List.mem_singleton.mp isLast, isEnd]
    exact TokenKind.noConfusion

end Covenant
