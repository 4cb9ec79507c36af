import Covenant.Source.Scanner.Progress

/-!
# Token streams

A token stream calls its scanner again and again and ends behind the first end
token or the first error, whichever comes first.
-/

namespace Covenant

/-- The tokens that a scanner has still to give. -/
structure TokenStream where
  /-- The scanner that gives them. -/
  scanner : Scanner
  /-- Whether the end token or an error has been given. -/
  finished : Bool := false
deriving DecidableEq

namespace TokenStream

/-- One item of a token stream. -/
abbrev Item := Except ScanError Token

/-- Whether nothing comes behind an item. -/
def Item.isLast : Item → Bool
  | .ok token => token.kind = .endOfInput
  | .error _ => true

/-- The next item, if there is one, and the stream behind it. -/
def next? (stream : TokenStream) : Option Item × TokenStream :=
  if stream.finished then (none, stream)
  else
    match Scanner.scan stream.scanner with
    | .ok token scanner => (some (.ok token), ⟨scanner, token.kind = .endOfInput⟩)
    | .error error scanner => (some (.error error), ⟨scanner, true⟩)

/-- All items that are left, and the stream behind them. -/
def drain (stream : TokenStream) : List Item × TokenStream :=
  if stream.finished then ([], stream)
  else
    match scanned : Scanner.scan stream.scanner with
    | .error error scanner => ([.error error], ⟨scanner, true⟩)
    | .ok token scanner =>
      if isEnd : token.kind = .endOfInput then ([.ok token], ⟨scanner, true⟩)
      else
        have := Scanner.pending_lt_of_scan scanned isEnd
        let (items, behind) := drain ⟨scanner, false⟩
        (.ok token :: items, behind)
termination_by stream.scanner.pending.length

theorem drain_of_error
    {scanner after : Scanner}
    {error : ScanError}
    (scanned : Scanner.scan scanner = .error error after) :
    drain ⟨scanner, false⟩ = ([.error error], ⟨after, true⟩) := by
  rw [drain]
  split
  · contradiction
  · split <;> simp_all

theorem drain_of_end
    {scanner after : Scanner}
    {token : Token}
    (scanned : Scanner.scan scanner = .ok token after)
    (isEnd : token.kind = .endOfInput) :
    drain ⟨scanner, false⟩ = ([.ok token], ⟨after, true⟩) := by
  rw [drain]
  split
  · contradiction
  · split <;> simp_all

theorem drain_of_token
    {scanner after : Scanner}
    {token : Token}
    (scanned : Scanner.scan scanner = .ok token after)
    (notEnd : token.kind ≠ .endOfInput) :
    drain ⟨scanner, false⟩ =
      (.ok token :: (drain ⟨after, false⟩).1, (drain ⟨after, false⟩).2) := by
  rw [drain]
  split
  · contradiction
  · split <;> simp_all

/-- All items that are left. -/
def items (stream : TokenStream) : List Item :=
  stream.drain.1

end TokenStream

/-- The stream of the tokens that are left. -/
def Scanner.tokens (scanner : Scanner) : TokenStream :=
  ⟨scanner, false⟩

/-- The tokens of a source text, the end token last. -/
def tokenize (source : String) : Except ScanError (List Token) :=
  (Scanner.ofText source).tokens.items.mapM id

end Covenant
