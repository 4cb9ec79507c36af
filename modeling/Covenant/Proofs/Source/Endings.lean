import Covenant.Proofs.Source.Bookkeeping
import Covenant.Proofs.Source.Scanning
import Covenant.Source.Reader.Text

/-!
# Calls behind an end token

A scanner does not remember that it has reported the end of its input.  What its further
calls give is up to the source: they go on reporting the end exactly if the source gives
nothing but blanks and reports of the end from then on, and the position stays where it is
exactly if there are no blanks among these either (`Scanner.calls_behind_end_token`).
A source that ends for good is such a source (`Scanner.repeats_of_endsForGood`).
-/

namespace Covenant

namespace Position

theorem line_advanceOver (position : Position) (text : List Char) :
    (position.advanceOver text).line = position.line + .ofNat (text.count '\n') := by
  induction text generalizing position with
  | nil => simp
  | cons c text inductionHypothesis =>
      rw [advanceOver_cons, inductionHypothesis, advance]
      split
      · rename_i lineFeed
        rw [lineFeed, List.count_cons_self, UInt32.ofNat_add, UInt32.add_assoc,
          UInt32.add_comm (.ofNat _)]
        rfl
      · rename_i noLineFeed
        rw [List.count_cons_of_ne noLineFeed]

theorem column_advanceOver
    (position : Position)
    {text : List Char}
    (noLineFeed : '\n' ∉ text) :
    (position.advanceOver text).column = position.column + .ofNat text.length := by
  induction text generalizing position with
  | nil => simp
  | cons c text inductionHypothesis =>
      rw [List.mem_cons, not_or] at noLineFeed
      rw [advanceOver_cons, inductionHypothesis _ noLineFeed.2, advance,
        if_neg (Ne.symm noLineFeed.1), List.length_cons, UInt32.ofNat_add, UInt32.add_assoc,
        UInt32.add_comm (.ofNat _)]
      rfl

/-- A text moves the position, unless it is long enough for a counter to come round. -/
theorem eq_nil_of_advanceOver_eq
    {position : Position}
    {text : List Char}
    (stays : position.advanceOver text = position)
    (short : text.length < UInt32.size) :
    text = [] := by
  have eq_zero_of_add {counter : UInt32} {n : Nat} (fits : n < UInt32.size)
      (same : counter + .ofNat n = counter) : n = 0 := by
    have isZero := congrArg UInt32.toNat (UInt32.left_eq_add.mp same.symm)
    rwa [UInt32.toNat_ofNat_of_lt' fits] at isZero
  have noLineFeed : '\n' ∉ text := by
    rw [← List.count_eq_zero]
    apply eq_zero_of_add (Nat.lt_of_le_of_lt List.count_le_length short)
    rw [← line_advanceOver, stays]
  apply List.eq_nil_of_length_eq_zero
  apply eq_zero_of_add short
  rw [← column_advanceOver position noLineFeed, stays]

end Position

/-- What was given is an end token. -/
def TokenStream.Item.IsEnd (item : TokenStream.Item) : Prop :=
  ∃ token, item = .ok token ∧ token.kind = .endOfInput

/-- The end of the input was reported, or a blank was read. -/
def CharRead.IsEndOrBlank (read : CharRead) : Prop :=
  read = .endOfInput ∨ ∃ c, read = .char c ∧ isBlank c = true

/-- The input ends behind a run of characters. -/
def EndsBehind (run : List Char) (pending left : List CharRead) : Prop :=
  ∃ behind, pending = run.map .char ++ behind ∧ Stops behind (.ok ()) left

/-- An end token is given only where a source ends. -/
theorem Portion.stops_of_endOfInput
    {pending left : List CharRead}
    {text : List Char}
    (portion : Portion pending text left (.ok .endOfInput)) :
    Stops pending (.ok ()) left := by
  generalize isEnd : (.ok .endOfInput : Except SourceFault TokenKind) = outcome at portion
  cases portion with
  | @finish _ _ stop stops =>
      cases stop with
      | ok => exact stops
      | error => cases isEnd
  | structural found =>
      obtain rfl := Except.ok.inj isEnd
      unfold TokenKind.structural? at found
      split at found <;> cases found
  | @unclosed _ _ _ stop _ _ => cases stop <;> cases isEnd
  | @digits _ _ _ _ found _ _ =>
      cases found with
      | ok next =>
          simp only [Except.map, Except.ok.injEq] at isEnd
          split at isEnd <;> cases isEnd
      | error => cases isEnd
  | @word _ _ _ _ found _ _ =>
      cases found with
      | ok next =>
          simp only [Except.map, Except.ok.injEq] at isEnd
          split at isEnd <;> cases isEnd
      | error => cases isEnd
  | _ => cases isEnd

/-- Where there are only blanks and reports of the end, the input ends behind blanks. -/
theorem exists_endsBehind
    {pending : List CharRead}
    (quiet : ∀ read ∈ pending, read.IsEndOrBlank) :
    ∃ blanks left, (∀ c ∈ blanks, isBlank c = true) ∧ EndsBehind blanks pending left ∧
      ∀ read ∈ left, read.IsEndOrBlank := by
  obtain ⟨blanks, behind, rfl, blank, ends⟩ := exists_run isBlank pending
  have quiet := (List.forall_mem_append.mp quiet).2
  cases behind with
  | nil => exact ⟨blanks, [], blank, ⟨[], rfl, .exhausted⟩, quiet⟩
  | cons first left =>
      rcases (List.forall_mem_cons.mp quiet).1 with rfl | ⟨c, rfl, isBlank⟩
      · exact ⟨blanks, left, blank, ⟨_, rfl, .ended left⟩, (List.forall_mem_cons.mp quiet).2⟩
      · exact absurd isBlank (Bool.eq_false_iff.mp (ends _ rfl))

namespace Scanner

open TokenStream (Item exists_stops_of_ended)

theorem pending_of_unpeeked
    {scanner : Scanner}
    (unpeeked : scanner.peeked = none) :
    scanner.pending = scanner.reads := by
  rw [pending, unpeeked]

/-- What a call gives where the input ends behind blanks. -/
theorem call_of_endsBehind
    {scanner : Scanner}
    {blanks : List Char}
    {left : List CharRead}
    (blank : ∀ c ∈ blanks, isBlank c = true)
    (ends : EndsBehind blanks scanner.pending left) :
    scanner.call.1 = .ok ⟨.endOfInput, "", scanner.call.2.position⟩ ∧
      scanner.call.2.pending = left ∧
      scanner.call.2.position = scanner.position.advanceOver blanks := by
  obtain ⟨behind, isPending, stops⟩ := ends
  obtain ⟨after, scanned, isLeft, position⟩ := performs_scan blank (.finish stops) isPending
  have scanned : scan scanner = .ok ⟨.endOfInput, "", after.position⟩ after := scanned
  rw [List.append_nil] at position
  have called : scanner.call = (.ok ⟨.endOfInput, "", after.position⟩, after) := by
    simp only [call, scanned]
  rw [called]
  exact ⟨rfl, isLeft, position⟩

/-- A call gives an end token only where the input ends behind blanks. -/
theorem exists_endsBehind_of_isEnd
    {scanner : Scanner}
    (isEnd : Item.IsEnd scanner.call.1) :
    ∃ blanks, (∀ c ∈ blanks, isBlank c = true) ∧
      EndsBehind blanks scanner.pending scanner.call.2.pending := by
  obtain ⟨blanks, behind, text, left, outcome, isPending, blank, portion⟩ :=
    exists_portion scanner.pending
  obtain ⟨after, scanned, rfl, -⟩ := performs_scan blank portion isPending
  obtain ⟨token, gives, kind⟩ := isEnd
  simp only [call, scanned] at gives ⊢
  cases outcome with
  | ok found =>
      obtain rfl := Except.ok.inj gives
      obtain rfl : found = .endOfInput := kind
      exact ⟨blanks, blank, behind, isPending, portion.stops_of_endOfInput⟩
  | error => cases gives

/-- The first of some calls, and those behind it. -/
theorem calls_succ (scanner : Scanner) (n : Nat) :
    scanner.calls (n + 1) =
      (scanner.call.1 :: (scanner.call.2.calls n).1, (scanner.call.2.calls n).2) := by
  induction n with
  | zero => rfl
  | succ n inductionHypothesis =>
      rw [calls, inductionHypothesis]
      rfl

theorem length_calls (scanner : Scanner) (n : Nat) : (scanner.calls n).1.length = n := by
  induction n generalizing scanner with
  | zero => rfl
  | succ n inductionHypothesis => rw [calls_succ, List.length_cons, inductionHypothesis]

/-- What every call gives while an invariant is kept. -/
theorem forall_mem_calls
    (invariant : Scanner → Prop)
    {good : Item → Prop}
    (step : ∀ scanner, invariant scanner → good scanner.call.1 ∧ invariant scanner.call.2)
    {scanner : Scanner}
    (holds : invariant scanner)
    (n : Nat) :
    ∀ item ∈ (scanner.calls n).1, good item := by
  induction n generalizing scanner with
  | zero => simp [calls]
  | succ n inductionHypothesis =>
      rw [calls_succ, List.forall_mem_cons]
      exact ⟨(step scanner holds).1, inductionHypothesis (step scanner holds).2⟩

/-- What is pending while an invariant is kept under which every call finds the end of the
input behind characters that are allowed. -/
theorem forall_mem_pending
    (invariant : Scanner → Prop)
    (allowed : CharRead → Prop)
    (ended : allowed .endOfInput)
    (step : ∀ scanner, invariant scanner → invariant scanner.call.2 ∧
      ∃ run, (∀ c ∈ run, allowed (.char c)) ∧
        EndsBehind run scanner.pending scanner.call.2.pending)
    {scanner : Scanner}
    (holds : invariant scanner) :
    ∀ read ∈ scanner.pending, allowed read := by
  induction size : scanner.pending.length using Nat.strong_induction_on generalizing scanner with
  | h size' inductionHypothesis =>
      obtain ⟨holds', run, allowedRun, behind, isPending, stops⟩ := step scanner holds
      have allowedRun : ∀ read ∈ run.map CharRead.char, allowed read :=
        List.forall_mem_map.mpr allowedRun
      rw [isPending, List.forall_mem_append]
      generalize isLeft : scanner.call.2.pending = left at stops
      cases stops with
      | exhausted => exact ⟨allowedRun, by simp⟩
      | ended rest =>
          refine ⟨allowedRun, List.forall_mem_cons.mpr ⟨ended, ?_⟩⟩
          rw [← isLeft]
          refine inductionHypothesis _ ?_ holds' rfl
          rw [← size, isPending, isLeft, List.length_append, List.length_cons]
          omega

/-- Further calls give nothing but end tokens. -/
def GivesOnlyEnds (scanner : Scanner) : Prop :=
  ∀ n, ∀ item ∈ (scanner.calls n).1, Item.IsEnd item

/-- Further calls give one token again and again. -/
def Repeats (token : Token) (scanner : Scanner) : Prop :=
  ∀ n, (scanner.calls n).1 = List.replicate n (.ok token)

theorem GivesOnlyEnds.call
    {scanner : Scanner}
    (onlyEnds : GivesOnlyEnds scanner) :
    Item.IsEnd scanner.call.1 ∧ GivesOnlyEnds scanner.call.2 := by
  refine ⟨onlyEnds 1 _ (by simp [calls]), fun n item listed => onlyEnds (n + 1) item ?_⟩
  rw [calls_succ]
  exact List.mem_cons_of_mem _ listed

theorem Repeats.call
    {token : Token}
    {scanner : Scanner}
    (repeats : Repeats token scanner) :
    scanner.call.1 = .ok token ∧ Repeats token scanner.call.2 := by
  have both n := repeats (n + 1)
  simp only [calls_succ, List.replicate_succ, List.cons.injEq] at both
  exact ⟨(both 0).1, fun n => (both n).2⟩

/-- Calls give only end tokens exactly if nothing but blanks and reports of the end of the
input is pending. -/
theorem givesOnlyEnds_iff (scanner : Scanner) :
    GivesOnlyEnds scanner ↔ ∀ read ∈ scanner.pending, read.IsEndOrBlank := by
  constructor
  · intro onlyEnds
    refine forall_mem_pending GivesOnlyEnds CharRead.IsEndOrBlank (.inl rfl)
      (fun scanner onlyEnds => ?_) onlyEnds
    obtain ⟨blanks, blank, ends⟩ := exists_endsBehind_of_isEnd onlyEnds.call.1
    exact ⟨onlyEnds.call.2, blanks, fun c listed => .inr ⟨c, rfl, blank c listed⟩, ends⟩
  · intro quiet n
    refine forall_mem_calls (fun scanner => ∀ read ∈ scanner.pending, read.IsEndOrBlank)
      (fun scanner quiet => ?_) quiet n
    obtain ⟨blanks, left, blank, ends, quietLeft⟩ := exists_endsBehind quiet
    obtain ⟨gives, isLeft, -⟩ := call_of_endsBehind blank ends
    exact ⟨⟨_, gives, rfl⟩, isLeft ▸ quietLeft⟩

/-- Where nothing but reports of the end of the input is pending, the same end token is
given again and again. -/
theorem repeats_of_ended
    {scanner : Scanner}
    (ended : ∀ read ∈ scanner.pending, read = .endOfInput) :
    Repeats ⟨.endOfInput, "", scanner.position⟩ scanner := by
  intro n
  refine List.eq_replicate_iff.mpr ⟨length_calls scanner n, ?_⟩
  refine forall_mem_calls
    (fun other => other.position = scanner.position ∧ ∀ read ∈ other.pending, read = .endOfInput)
    (fun other kept => ?_) ⟨rfl, ended⟩ n
  obtain ⟨left, stops, endedLeft⟩ := exists_stops_of_ended kept.2
  obtain ⟨gives, isLeft, position⟩ :=
    @call_of_endsBehind other [] left (by simp) ⟨_, rfl, stops⟩
  have position : other.call.2.position = scanner.position := position.trans kept.1
  exact ⟨by rw [gives, position], position, isLeft ▸ endedLeft⟩

/-- Where an end token comes again and again that has the position of the last character,
no more characters are pending, unless so many of them are that a counter comes round. -/
theorem ended_of_repeats
    {scanner : Scanner}
    (repeats : Repeats ⟨.endOfInput, "", scanner.position⟩ scanner)
    (short : scanner.pending.length < UInt32.size) :
    ∀ read ∈ scanner.pending, read = .endOfInput := by
  refine forall_mem_pending
    (fun other => Repeats ⟨.endOfInput, "", scanner.position⟩ other ∧
      other.position = scanner.position ∧ other.pending.length < UInt32.size)
    (fun read => read = .endOfInput) rfl (fun other kept => ?_) ⟨repeats, rfl, short⟩
  obtain ⟨repeats, position, short⟩ := kept
  obtain ⟨gives, further⟩ := repeats.call
  obtain ⟨blanks, blank, ends⟩ := exists_endsBehind_of_isEnd ⟨_, gives, rfl⟩
  obtain ⟨gives', -, position'⟩ := call_of_endsBehind blank ends
  have stays : other.call.2.position = scanner.position :=
    congrArg Token.position (Except.ok.inj (gives'.symm.trans gives))
  obtain ⟨behind, isPending, stops⟩ := ends
  obtain ⟨gone, isBehind, -⟩ := stops.exists_eq_append
  have shorter : blanks.length ≤ other.pending.length ∧
      other.call.2.pending.length ≤ other.pending.length := by
    rw [isPending, isBehind]
    simp only [List.length_append, List.length_map]
    omega
  have noBlanks : blanks = [] := by
    apply Position.eq_nil_of_advanceOver_eq _ (Nat.lt_of_le_of_lt shorter.1 short)
    · exact other.position
    · rw [← position', stays, position]
  exact ⟨⟨further, stays, Nat.lt_of_le_of_lt shorter.2 short⟩, [], by simp, behind,
    by rw [isPending, noBlanks], stops⟩

/-- Behind an end token, the position is that of the token, and no character has been
looked at. -/
theorem of_end_token
    {reader : Reader}
    {n : Nat}
    {items : List Item}
    {token : Token}
    {after : Scanner}
    (called : (ofReader reader).calls n = (items ++ [.ok token], after))
    (isEnd : token.kind = .endOfInput) :
    token = ⟨.endOfInput, "", after.position⟩ ∧ after.peeked = none ∧
      ∃ front behind, reader.characters = front ++ behind ∧ Stops behind (.ok ()) after.reads := by
  cases n with
  | zero => simp [calls] at called
  | succ n =>
      simp only [calls, Prod.mk.injEq] at called
      obtain ⟨called, rfl⟩ := called
      obtain ⟨-, gives⟩ := List.append_inj' called rfl
      obtain gives := (List.cons.inj gives).1
      obtain ⟨past, _, isPending, -⟩ := calls_account_pending (ofReader reader) n
      generalize ((ofReader reader).calls n).2 = scanner at *
      obtain ⟨blanks, blank, ends⟩ := exists_endsBehind_of_isEnd ⟨token, gives, isEnd⟩
      obtain ⟨gives', -, -⟩ := call_of_endsBehind blank ends
      obtain rfl := Except.ok.inj (gives.symm.trans gives')
      obtain ⟨_, _, _, _, _, _, looked⟩ := call_accounts scanner
      have unpeeked : scanner.call.2.peeked = none := by
        by_contra found
        exact (looked _ gives found).1 rfl
      obtain ⟨behind, isPending', stops⟩ := ends
      refine ⟨rfl, unpeeked, past ++ blanks.map .char, behind, ?_, ?_⟩
      · rw [List.append_assoc, ← isPending', ← isPending]
        rfl
      · rwa [pending_of_unpeeked unpeeked] at stops

/-- The calls of a source's scanner behind an end token, by what the source still gives:
they give only end tokens exactly if it gives nothing but blanks and further reports of
the end, and they give the same end token again and again exactly if it gives only reports
of the end.  That the same token comes again excludes blanks only if they are not so many
that a counter comes round. -/
theorem calls_behind_end_token
    {reader : Reader}
    {n : Nat}
    {items : List Item}
    {token : Token}
    {after : Scanner}
    (called : (ofReader reader).calls n = (items ++ [.ok token], after))
    (isEnd : token.kind = .endOfInput) :
    after.reads <:+ reader.characters ∧
      (GivesOnlyEnds after ↔ ∀ read ∈ after.reads, read.IsEndOrBlank) ∧
      ((∀ read ∈ after.reads, read = .endOfInput) → Repeats token after) ∧
      (after.reads.length < UInt32.size →
        Repeats token after → ∀ read ∈ after.reads, read = .endOfInput) := by
  obtain ⟨rfl, unpeeked, front, behind, isAll, stops⟩ := of_end_token called isEnd
  obtain ⟨gone, rfl, -⟩ := stops.exists_eq_append
  rw [← pending_of_unpeeked unpeeked]
  refine ⟨⟨front ++ gone, ?_⟩, givesOnlyEnds_iff after, repeats_of_ended,
    fun short repeats => ended_of_repeats repeats short⟩
  rw [pending_of_unpeeked unpeeked, isAll, List.append_assoc]

/-- A source that reports the end of the input twice, and a blank between a second and a
third time. -/
def blankBehindEnd : Reader :=
  [.delivered [0x28], .endOfInput, .endOfInput, .delivered [0x20], .endOfInput]

/-- Behind the second call, only end tokens come, but not always the same one. -/
theorem calls_blankBehindEnd :
    ∃ after, ((ofReader blankBehindEnd).calls 2) =
        ([.ok ⟨.leftParen, "(", ⟨1, 1⟩⟩] ++ [.ok ⟨.endOfInput, "", ⟨1, 1⟩⟩], after) ∧
      GivesOnlyEnds after ∧ ¬Repeats ⟨.endOfInput, "", ⟨1, 1⟩⟩ after := by
  have called : (ofReader blankBehindEnd).calls 2 =
      ([.ok ⟨.leftParen, "(", ⟨1, 1⟩⟩] ++ [.ok ⟨.endOfInput, "", ⟨1, 1⟩⟩],
        ⟨[.endOfInput, .char ' ', .endOfInput], ⟨1, 1⟩, none⟩) := by decide +kernel
  obtain ⟨-, onlyEnds, -, ended⟩ := calls_behind_end_token called rfl
  refine ⟨_, called, onlyEnds.mpr ?_, fun repeats => ?_⟩
  · have blank : isBlank ' ' = true := by decide
    simp [CharRead.IsEndOrBlank, blank]
  · simpa using ended (by decide) repeats

/-- A source that goes on behind a report of the end. -/
def resumed : Reader :=
  [.endOfInput, .delivered [0x28]]

/-- A scanner that has given an end token goes on when its source does. -/
theorem calls_resumed :
    ((ofReader resumed).calls 2).1 =
      [.ok ⟨.endOfInput, "", ⟨1, 0⟩⟩, .ok ⟨.leftParen, "(", ⟨1, 1⟩⟩] := by
  decide +kernel

end Scanner

/-- A source that gives nothing but reports of the end behind the first one. -/
def Reader.EndsForGood (reader : Reader) : Prop :=
  ∀ front rest, reader.characters = front ++ .endOfInput :: rest →
    ∀ read ∈ rest, read = .endOfInput

theorem Reader.EndsForGood.ofText (text : String) : (Reader.ofText text).EndsForGood := by
  intro front rest isAll
  have listed : CharRead.endOfInput ∈ (Reader.ofText text).characters := by
    rw [isAll]
    exact List.mem_append_right _ List.mem_cons_self
  rw [Reader.characters_ofText] at listed
  obtain ⟨c, -, isEnd⟩ := List.mem_map.mp listed
  cases isEnd

/-- Where a source ends for good, an end token is given again and again. -/
theorem Scanner.repeats_of_endsForGood
    {reader : Reader}
    (forGood : reader.EndsForGood)
    {n : Nat}
    {items : List TokenStream.Item}
    {token : Token}
    {after : Scanner}
    (called : (ofReader reader).calls n = (items ++ [.ok token], after))
    (isEnd : token.kind = .endOfInput) :
    Repeats token after := by
  obtain ⟨rfl, unpeeked, front, behind, isAll, stops⟩ := of_end_token called isEnd
  apply repeats_of_ended
  rw [pending_of_unpeeked unpeeked]
  generalize after.reads = left at stops
  cases stops with
  | exhausted => simp
  | ended => exact forGood front _ isAll

/-- Behind the end token of a text, the same end token comes again and again. -/
theorem Scanner.repeats_ofText
    {text : String}
    {n : Nat}
    {items : List TokenStream.Item}
    {token : Token}
    {after : Scanner}
    (called : (ofText text).calls n = (items ++ [.ok token], after))
    (isEnd : token.kind = .endOfInput) :
    Repeats token after :=
  repeats_of_endsForGood (.ofText text) called isEnd

end Covenant
