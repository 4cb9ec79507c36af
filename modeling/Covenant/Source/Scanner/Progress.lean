import Covenant.Source.Scanner

/-!
# Progress of the scanner

No step of the scanner adds to what is pending, and a call that gives a token
other than the end token consumes at least one character.
-/

namespace Covenant
namespace Scanner

/-- A step after which no more is pending than before. -/
def NonExpanding {α : Type} (step : Scan α) : Prop :=
  ∀ ⦃scanner : Scanner⦄ ⦃value : α⦄ ⦃after : Scanner⦄,
    step scanner = .ok value after → after.pending.length ≤ scanner.pending.length

namespace NonExpanding

theorem bind
    {α β : Type}
    {step : Scan α}
    {next : α → Scan β}
    (first : NonExpanding step)
    (second : ∀ value, NonExpanding (next value)) :
    NonExpanding (step >>= next) := by
  intro scanner value after result
  simp only [Bind.bind, EStateM.bind] at result
  split at result
  · rename_i middle between stepped
    exact Nat.le_trans (second middle result) (first stepped)
  · simp at result

theorem token (kind : TokenKind) (value : String) : NonExpanding (token kind value) := by
  intro scanner result after same
  simp only [Scanner.token, EStateM.Result.ok.injEq] at same
  exact Nat.le_of_eq (congrArg (fun scanner => scanner.pending.length) same.2.symm)

theorem takeWhile (accept : Char → Bool) : NonExpanding (takeWhile accept) := by
  intro scanner taken after result
  simp only [Scanner.takeWhile, EStateM.Result.ok.injEq] at result
  rw [← result.2, pending_unpeeked]
  exact (List.dropWhile_sublist _).length_le

theorem peek : NonExpanding peek := by
  intro scanner found after result
  obtain ⟨reads, position, peeked⟩ := scanner
  cases peeked with
  | some c =>
    simp only [Scanner.peek, EStateM.Result.ok.injEq] at result
    simp [← result.2]
  | none =>
    rcases reads with _ | ⟨_ | _ | _ | _, rest⟩ <;>
      simp only [Scanner.peek, read, EStateM.Result.ok.injEq, reduceCtorEq] at result <;>
      simp [← result.2, pending]

end NonExpanding

theorem pending_lt_of_bump_eq_some
    {scanner after : Scanner}
    {c : Char}
    (result : bump scanner = .ok (some c) after) :
    after.pending.length < scanner.pending.length := by
  unfold bump at result
  cases pendingReads : scanner.pending with
  | nil => simp [read, pendingReads] at result
  | cons head rest =>
    cases head <;> simp [read, pendingReads] at result
    simp [← result.2]

theorem NonExpanding.bump : NonExpanding bump := by
  intro scanner found after result
  cases found with
  | some c => exact Nat.le_of_lt (pending_lt_of_bump_eq_some result)
  | none =>
    unfold Scanner.bump at result
    cases pendingReads : scanner.pending with
    | nil =>
      simp [read, pendingReads] at result
      simp [← result]
    | cons head rest =>
      cases head <;> simp [read, pendingReads] at result
      simp [← result]

theorem NonExpanding.tokenFrom (first : Char) : NonExpanding (tokenFrom first) := by
  unfold Scanner.tokenFrom
  split
  · exact token _ _
  · split
    · refine (takeWhile _).bind fun inner => bump.bind fun quote => ?_
      cases quote <;> exact token _ _
    · split
      · refine (takeWhile _).bind fun digits => peek.bind fun next => ?_
        cases next <;> exact token _ _
      · split
        · exact (takeWhile _).bind fun letters => peek.bind fun _ => token _ _
        · exact token _ _

/-- A call that gives a token other than the end token consumes something. -/
theorem pending_lt_of_scan
    {scanner after : Scanner}
    {found : Token}
    (result : scan scanner = .ok found after)
    (notEnd : found.kind ≠ .endOfInput) :
    after.pending.length < scanner.pending.length := by
  unfold scan at result
  simp only [Bind.bind, EStateM.bind] at result
  split at result
  · rename_i blanks behind skipped
    have skip := NonExpanding.takeWhile _ skipped
    split at result
    · rename_i first begun bumped
      cases first with
      | some c =>
        exact Nat.lt_of_le_of_lt (NonExpanding.tokenFrom c result)
          (Nat.lt_of_lt_of_le (pending_lt_of_bump_eq_some bumped) skip)
      | none =>
        simp only [Scanner.token, EStateM.Result.ok.injEq] at result
        exact absurd (by rw [← result.1]) notEnd
    · simp at result
  · simp at result

end Scanner
end Covenant
