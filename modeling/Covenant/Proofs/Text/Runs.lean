import Mathlib.Data.List.Basic
import Mathlib.Data.List.TakeWhile

/-!
# Runs of characters

A run is a part of a text in which a test accepts every character and which cannot be
made longer at either end.
-/

namespace Covenant

section

variable {α : Type} {accept : α → Bool} {run after : List α}

theorem takeWhile_append_of_ends
    (accepted : ∀ value ∈ run, accept value = true)
    (ends : ∀ value ∈ after.head?, accept value = false) :
    (run ++ after).takeWhile accept = run := by
  rw [List.takeWhile_append_of_pos accepted]
  cases after with
  | nil => simp
  | cons value after => simp [ends value rfl]

theorem dropWhile_append_of_ends
    (accepted : ∀ value ∈ run, accept value = true)
    (ends : ∀ value ∈ after.head?, accept value = false) :
    (run ++ after).dropWhile accept = after := by
  rw [List.dropWhile_append_of_pos accepted]
  cases after with
  | nil => simp
  | cons value after => simp [ends value rfl]

theorem head?_dropWhile_ends
    (accept : α → Bool)
    (values : List α) :
    ∀ value ∈ (values.dropWhile accept).head?, accept value = false := by
  intro value first
  have stops := List.head?_dropWhile_not accept values
  rwa [Option.mem_def.mp first] at stops

end

/-- Between what stands before and after it, a piece of text is a whole run of accepted
characters. -/
structure IsRun (accept : Char → Bool) (before run after : List Char) : Prop where
  nonempty : run ≠ []
  accepted : ∀ c ∈ run, accept c = true
  begins : ∀ c ∈ before.getLast?, accept c = false
  ends : ∀ c ∈ after.head?, accept c = false

/-- No run of accepted characters goes on from one text into the next. -/
def Splits (accept : Char → Bool) (before text : List Char) : Prop :=
  ∀ last ∈ before.getLast?, ∀ next ∈ text.head?, accept last = true → accept next = false

theorem Splits.of_last
    {accept : Char → Bool}
    {before run : List Char}
    (nonempty : run ≠ [])
    (refused : ∀ c ∈ run.getLast?, accept c = false)
    (text : List Char) :
    Splits accept (before ++ run) text := by
  intro last isLast next _ accepted
  rw [List.getLast?_append_of_ne_nil _ nonempty] at isLast
  rw [refused last isLast] at accepted
  contradiction

theorem IsRun.splits
    {accept : Char → Bool}
    {before run after : List Char}
    (isRun : IsRun accept before run after) :
    Splits accept (before ++ run) after :=
  fun _ _ next isNext _ => isRun.ends next isNext

/-- Where no run goes on, accepted characters are a whole run if no other one follows. -/
theorem Splits.isRun
    {accept : Char → Bool}
    {before run after : List Char}
    (splits : Splits accept before (run ++ after))
    (nonempty : run ≠ [])
    (accepted : ∀ c ∈ run, accept c = true)
    (ends : ∀ c ∈ after.head?, accept c = false) :
    IsRun accept before run after where
  nonempty := nonempty
  accepted := accepted
  begins := by
    intro last isLast
    obtain ⟨first, others, rfl⟩ := List.exists_cons_of_ne_nil nonempty
    apply Bool.eq_false_iff.mpr
    intro acceptedLast
    have refused := splits last isLast first rfl acceptedLast
    rw [accepted first List.mem_cons_self] at refused
    contradiction
  ends := ends

/-- Where no run goes on, an accepted character begins one. -/
theorem isRun_takeWhile
    {accept : Char → Bool}
    {before text : List Char}
    {first : Char}
    (splits : Splits accept before (first :: text))
    (accepted : accept first = true) :
    IsRun accept before ((first :: text).takeWhile accept) ((first :: text).dropWhile accept) := by
  rw [← List.takeWhile_append_dropWhile (p := accept) (l := first :: text)] at splits
  exact splits.isRun (by simp [accepted]) (fun c => List.mem_takeWhile_imp)
    (head?_dropWhile_ends accept _)

end Covenant
