import Covenant.Proofs.Source.Calls
import Covenant.Proofs.Text.Sequences

/-!
# The text that a source carries

The bytes that a source gives begin with those of a text, which is followed by the end of
the input, or by a fault of the source: a read fails, possibly inside a character, or there
are bytes that form no character (`Carries`).  Only sources that go on behind a reported
end of the input carry no text in this sense (`exists_carries`).  A request for a character
finds the characters of the text one after the other and then the end or the fault
(`Carries.exists_charactersFrom_eq`).
-/

namespace Covenant
namespace Utf8

/-- Not all bytes of a sequence are there: not those that the lead byte announces, or not
even the lead byte. -/
inductive IsIncomplete : List UInt8 → Prop
  | nil : IsIncomplete []
  | begun {lead : UInt8} {following : List UInt8} {announced : Nat} :
      following? lead = some announced →
      following.length < announced →
      IsIncomplete (lead :: following)

/-- All bytes of a sequence are there, and they form no character. -/
inductive IsMalformed : List UInt8 → Prop
  | noLead {value : UInt8} :
      following? value = none →
      IsMalformed [value]
  | noCharacter {lead : UInt8} {following : List UInt8} :
      following? lead = some following.length →
      (∀ c, lead :: following ≠ String.utf8EncodeChar c) →
      IsMalformed (lead :: following)

end Utf8

/-- What one request for a byte after the other gives: the bytes of a text, and then the
end of the input or the bytes and reads of a fault.  The reads behind a fault may be any. -/
inductive Carries : List ByteRead → String → Option SourceFault → Prop
  | whole (text : String) {rest : List ByteRead} :
      (∀ read ∈ rest, read = .endOfInput) →
      Carries ((Utf8.encode text).map .byte ++ rest) text none
  /-- A read fails before a sequence is complete. -/
  | failure
      (text : String) {begun : List UInt8} (message : String) (rest : List ByteRead) :
      Utf8.IsIncomplete begun →
      Carries ((Utf8.encode text ++ begun).map .byte ++ .failure message :: rest) text
        (some (.failure message))
  /-- The input ends before a sequence that has been begun is complete. -/
  | truncated (text : String) {begun : List UInt8} {rest : List ByteRead} :
      begun ≠ [] →
      Utf8.IsIncomplete begun →
      (∀ read ∈ rest.head?, read = .endOfInput) →
      Carries ((Utf8.encode text ++ begun).map .byte ++ rest) text (some .malformed)
  | malformed (text : String) {sequence : List UInt8} (rest : List ByteRead) :
      Utf8.IsMalformed sequence →
      Carries ((Utf8.encode text ++ sequence).map .byte ++ rest) text (some .malformed)

/-- The reads behind the characters of a text: nothing but the end of the input, or a fault
and then any reads. -/
inductive Closes : Option SourceFault → List CharRead → Prop
  | ended {tail : List CharRead} :
      (∀ read ∈ tail, read = .endOfInput) →
      Closes none tail
  | failed (fault : SourceFault) (rest : List CharRead) :
      Closes (some fault) (fault.read :: rest)

namespace Reader

theorem charactersFrom_of_forall_endOfInput
    {rest : List ByteRead}
    (ended : ∀ read ∈ rest, read = .endOfInput) :
    ∀ read ∈ charactersFrom none rest, read = .endOfInput := by
  induction rest with
  | nil => simp [charactersFrom]
  | cons first rest inductionHypothesis =>
      obtain ⟨rfl, endedRest⟩ := List.forall_mem_cons.mp ended
      rw [charactersFrom]
      exact List.forall_mem_cons.mpr ⟨rfl, inductionHypothesis endedRest⟩

/-- A sequence takes further bytes as long as it lacks one more. -/
theorem charactersFrom_some_append
    {following : List UInt8}
    {afterNext : Nat}
    (lacking : following.length ≤ afterNext)
    (begun : List UInt8)
    (rest : List ByteRead) :
    charactersFrom (some ⟨begun, afterNext⟩) (following.map .byte ++ rest) =
      charactersFrom (some ⟨begun ++ following, afterNext - following.length⟩) rest := by
  induction following generalizing begun afterNext with
  | nil => simp
  | cons value following inductionHypothesis =>
      cases afterNext with
      | zero => simp at lacking
      | succ afterNext =>
          rw [List.map_cons, List.cons_append, charactersFrom]
          simp only [inductionHypothesis (Nat.le_of_succ_le_succ lacking), List.append_assoc,
            List.singleton_append, List.length_cons, Nat.add_sub_add_right]

/-- A sequence with as many bytes as its lead byte announces is read as a whole. -/
theorem charactersFrom_complete
    {lead : UInt8}
    {following : List UInt8}
    (complete : Utf8.following? lead = some following.length)
    (rest : List ByteRead) :
    charactersFrom none ((lead :: following).map .byte ++ rest) =
      .ofSequence (lead :: following) :: charactersFrom none rest := by
  rw [List.map_cons, List.cons_append]
  rcases List.eq_nil_or_concat' following with rfl | ⟨inner, last, rfl⟩
  · rw [charactersFrom, complete]
    rfl
  · rw [List.length_append, List.length_singleton] at complete
    rw [charactersFrom, complete, List.map_append, List.append_assoc]
    simp only
    rw [charactersFrom_some_append (Nat.le_refl _), Nat.sub_self]
    simp [charactersFrom]

/-- A fault cuts a sequence short that is not complete. -/
theorem charactersFrom_incomplete
    {begun : List UInt8}
    (incomplete : Utf8.IsIncomplete begun)
    (rest : List ByteRead) :
    ∃ state : Option PartialSequence, (state = none ↔ begun = []) ∧
      charactersFrom none (begun.map .byte ++ rest) = charactersFrom state rest := by
  cases incomplete with
  | nil => exact ⟨none, by simp, rfl⟩
  | @begun lead following announced announces short =>
      obtain ⟨afterNext, rfl⟩ := Nat.exists_eq_add_one_of_ne_zero (Nat.ne_zero_of_lt short)
      refine ⟨some ⟨[lead] ++ following, afterNext - following.length⟩, by simp, ?_⟩
      rw [List.map_cons, List.cons_append, charactersFrom, announces]
      exact charactersFrom_some_append (Nat.le_of_lt_succ short) _ rest

theorem charactersFrom_malformed
    {sequence : List UInt8}
    (malformed : Utf8.IsMalformed sequence)
    (rest : List ByteRead) :
    charactersFrom none (sequence.map .byte ++ rest) =
      .malformed :: charactersFrom none rest := by
  cases malformed with
  | noLead none => simp [charactersFrom, none]
  | @noCharacter lead following complete noCharacter =>
      have undecoded : Utf8.char? (lead :: following) = none := by
        apply Option.eq_none_iff_forall_ne_some.mpr
        intro c decoded
        exact noCharacter c ((Utf8.char?_eq_some_iff complete).mp decoded)
      rw [charactersFrom_complete complete, CharRead.ofSequence, undecoded]

end Reader

/-- Requests for characters find those of the text, and behind them what closes it. -/
theorem Carries.exists_charactersFrom_eq
    {bytes : List ByteRead}
    {text : String}
    {ending : Option SourceFault}
    (carries : Carries bytes text ending) :
    ∃ tail, Reader.charactersFrom none bytes = text.toList.map .char ++ tail ∧
      Closes ending tail := by
  have decoded : ∀ rest, Reader.charactersFrom none ((Utf8.encode text).map .byte ++ rest) =
      text.toList.map .char ++ Reader.charactersFrom none rest :=
    Reader.charactersFrom_encode text.toList
  cases carries with
  | whole _ ended =>
      exact ⟨_, decoded _, .ended (Reader.charactersFrom_of_forall_endOfInput ended)⟩
  | @failure _ begun message rest incomplete =>
      obtain ⟨state, _, same⟩ :=
        Reader.charactersFrom_incomplete incomplete (.failure message :: rest)
      refine ⟨_, ?_, .failed (.failure message) (Reader.charactersFrom none rest)⟩
      rw [List.map_append, List.append_assoc, decoded, same]
      cases state <;> rw [Reader.charactersFrom] <;> rfl
  | @truncated _ begun rest nonempty incomplete ended =>
      obtain ⟨state, isNone, same⟩ := Reader.charactersFrom_incomplete incomplete rest
      cases state with
      | none => exact absurd (isNone.mp rfl) nonempty
      | some sequence =>
          refine ⟨_, ?_, .failed .malformed (Reader.charactersFrom none rest.tail)⟩
          rw [List.map_append, List.append_assoc, decoded, same]
          cases rest with
          | nil => rfl
          | cons first rest =>
              obtain rfl := ended first rfl
              rw [Reader.charactersFrom]
              rfl
  | malformed _ rest isMalformed =>
      refine ⟨_, ?_, .failed .malformed (Reader.charactersFrom none rest)⟩
      rw [List.map_append, List.append_assoc, decoded,
        Reader.charactersFrom_malformed isMalformed]
      rfl

/-! ## Every source carries a text -/

/-- One more character in front of a text. -/
theorem Carries.cons
    {bytes : List ByteRead}
    {text : String}
    {ending : Option SourceFault}
    (carries : Carries bytes text ending)
    (c : Char) :
    Carries ((String.utf8EncodeChar c).map .byte ++ bytes) (String.ofList (c :: text.toList))
      ending := by
  have encoded : Utf8.encode (String.ofList (c :: text.toList)) =
      String.utf8EncodeChar c ++ Utf8.encode text := by simp [Utf8.encode]
  cases carries with
  | whole _ ended =>
      rw [← List.append_assoc, ← List.map_append, ← encoded]
      exact .whole _ ended
  | failure _ message rest incomplete =>
      rw [← List.append_assoc, ← List.map_append, ← List.append_assoc, ← encoded]
      exact .failure _ message rest incomplete
  | truncated _ nonempty incomplete ended =>
      rw [← List.append_assoc, ← List.map_append, ← List.append_assoc, ← encoded]
      exact .truncated _ nonempty incomplete ended
  | malformed _ rest isMalformed =>
      rw [← List.append_assoc, ← List.map_append, ← List.append_assoc, ← encoded]
      exact .malformed _ rest isMalformed

/-- As many bytes come next as are asked for, or fewer and then a read that gives none. -/
theorem exists_bytes
    (count : Nat)
    (reads : List ByteRead) :
    ∃ (values : List UInt8) (rest : List ByteRead), reads = values.map .byte ++ rest ∧
      (values.length = count ∨
        values.length < count ∧ ∀ value, rest.head? ≠ some (.byte value)) := by
  induction count generalizing reads with
  | zero => exact ⟨[], reads, rfl, .inl rfl⟩
  | succ count inductionHypothesis =>
      rcases reads with _ | ⟨_ | message | _, reads⟩
      · exact ⟨[], [], rfl, .inr (by simp)⟩
      · rename_i value
        obtain ⟨values, rest, rfl, counted⟩ := inductionHypothesis reads
        refine ⟨value :: values, rest, rfl, ?_⟩
        simpa using counted
      · exact ⟨[], _, rfl, .inr (by simp)⟩
      · exact ⟨[], _, rfl, .inr (by simp)⟩

/-- A sequence that has been begun is cut short by a failing read or the end. -/
theorem Carries.of_incomplete
    {begun : List UInt8}
    (nonempty : begun ≠ [])
    (incomplete : Utf8.IsIncomplete begun)
    {rest : List ByteRead}
    (noByte : ∀ value, rest.head? ≠ some (.byte value)) :
    ∃ ending, Carries (begun.map .byte ++ rest) "" ending := by
  rcases rest with _ | ⟨value | message | _, rest⟩
  · exact ⟨_, .truncated "" nonempty incomplete (by simp)⟩
  · exact absurd rfl (noByte value)
  · exact ⟨_, .failure "" message rest incomplete⟩
  · exact ⟨_, .truncated "" nonempty incomplete (by simp)⟩

/-- Every source carries a text, unless it goes on behind a reported end of the input. -/
theorem exists_carries
    (bytes : List ByteRead)
    (endsOnce : ∀ front rest, bytes = front ++ .endOfInput :: rest →
      ∀ read ∈ rest, read = .endOfInput) :
    ∃ text ending, Carries bytes text ending := by
  induction length : bytes.length using Nat.strong_induction_on generalizing bytes with
  | h length inductionHypothesis =>
      subst length
      rcases bytes with _ | ⟨lead | message | _, rest⟩
      · exact ⟨"", _, .whole "" (List.forall_mem_nil _)⟩
      · cases announces : Utf8.following? lead with
        | none => exact ⟨"", _, .malformed "" rest (.noLead announces)⟩
        | some announced =>
            obtain ⟨following, rest, rfl, complete | ⟨short, noByte⟩⟩ :=
              exists_bytes announced rest
            · rw [← complete] at announces
              by_cases isCharacter : ∃ c, lead :: following = String.utf8EncodeChar c
              · obtain ⟨c, isSequence⟩ := isCharacter
                have whole : ByteRead.byte lead :: (following.map .byte ++ rest) =
                    (String.utf8EncodeChar c).map .byte ++ rest := by rw [← isSequence]; rfl
                have endsOnceRest : ∀ front behind, rest = front ++ .endOfInput :: behind →
                    ∀ read ∈ behind, read = .endOfInput := by
                  rintro front behind rfl
                  exact endsOnce (.byte lead :: (following.map .byte ++ front)) behind (by simp)
                have shorter : rest.length <
                    (ByteRead.byte lead :: (following.map .byte ++ rest)).length := by
                  rw [List.length_cons, List.length_append]
                  omega
                obtain ⟨text, ending, carries⟩ :=
                  inductionHypothesis rest.length shorter rest endsOnceRest rfl
                exact ⟨_, ending, whole ▸ carries.cons c⟩
              · have noCharacter := not_exists.mp isCharacter
                exact ⟨"", _, .malformed "" rest (.noCharacter announces noCharacter)⟩
            · have incomplete : Utf8.IsIncomplete (lead :: following) := .begun announces short
              obtain ⟨ending, carries⟩ :=
                Carries.of_incomplete (List.cons_ne_nil _ _) incomplete noByte
              exact ⟨"", ending, carries⟩
      · exact ⟨"", _, .failure "" message rest .nil⟩
      · refine ⟨"", _, .whole "" (List.forall_mem_cons.mpr ⟨rfl, endsOnce [] rest rfl⟩)⟩

end Covenant
