import Covenant.Contract.Basic
import Mathlib.Data.List.Basic

/-!
# Descents

One descends from a contract to one of its continuations, from there to one of the next
continuations, and so on.  The height of a contract is the length of its longest descents,
and whichever continuations are chosen, after so many steps at most there is nothing left
but `Contract.close` (`Contract.exists_descend?_eq_close`).
-/

namespace Covenant

mutual

/-- The number of steps in the longest descents from a contract. -/
def Contract.height : Contract → Nat
  | .close => 0
  | .pay _ _ _ _ next => next.height + 1
  | .choose _ ifTrue ifFalse => max ifTrue.height ifFalse.height + 1
  | .await cases _ onTimeout => max (Case.heightOfAll cases) onTimeout.height + 1
  | .bind _ _ next => next.height + 1
  | .assert _ next => next.height + 1

/-- The height of the highest contract that follows one of the cases. -/
def Case.heightOfAll : List Case → Nat
  | [] => 0
  | .mk _ next :: rest => max next.height (Case.heightOfAll rest)

end

theorem Case.heightOfAll_le_iff
    {cases : List Case}
    {bound : Nat} :
    heightOfAll cases ≤ bound ↔ ∀ case ∈ cases, case.next.height ≤ bound := by
  induction cases with
  | nil => simp [heightOfAll]
  | cons case rest inductionHypothesis =>
      obtain ⟨action, next⟩ := case
      rw [heightOfAll, Nat.max_le, inductionHypothesis, List.forall_mem_cons, next_mk]

namespace Contract

variable {contract next : Contract} {indices : List Nat}

theorem continuations_eq_nil_iff : contract.continuations = [] ↔ contract = .close := by
  cases contract <;> simp [continuations]

theorem height_le_succ_iff
    {bound : Nat} :
    contract.height ≤ bound + 1 ↔ ∀ next ∈ contract.continuations, next.height ≤ bound := by
  cases contract with
  | await cases timeout onTimeout =>
      rw [height, Nat.succ_le_succ_iff, Nat.max_le, Case.heightOfAll_le_iff, continuations,
        List.forall_mem_append, List.forall_mem_map, List.forall_mem_singleton]
  | choose condition ifTrue ifFalse =>
      rw [height, Nat.succ_le_succ_iff, Nat.max_le, continuations, List.forall_mem_cons,
        List.forall_mem_singleton]
  | _ => simp [height, continuations]

theorem height_lt_of_mem_continuations
    (follows : next ∈ contract.continuations) :
    next.height < contract.height := by
  cases positive : contract.height with
  | zero =>
      obtain rfl : contract = .close := by cases contract <;> simp_all [height]
      cases follows
  | succ bound =>
      have lower := height_le_succ_iff.mp (Nat.le_of_eq positive)
      exact Nat.lt_succ_of_le (lower next follows)

/-- Every contract but `close` has a continuation that is lower by one step only. -/
theorem exists_height_eq_succ
    (isOpen : contract ≠ .close) :
    ∃ next ∈ contract.continuations, contract.height = next.height + 1 := by
  obtain ⟨first, follows⟩ := List.exists_mem_of_ne_nil _ (mt continuations_eq_nil_iff.mp isOpen)
  by_contra lower
  have belowTwice : ∀ next ∈ contract.continuations, next.height + 1 < contract.height := by
    intro next isNext
    have below := height_lt_of_mem_continuations isNext
    have apart : contract.height ≠ next.height + 1 := fun same => lower ⟨next, isNext, same⟩
    omega
  have low : contract.height ≤ contract.height - 2 + 1 := by
    apply height_le_succ_iff.mpr
    intro next isNext
    have below := belowTwice next isNext
    omega
  have below := belowTwice first follows
  omega

/-- A property passes from the continuations of contracts to all contracts. -/
@[elab_as_elim]
theorem inductionOnContinuations
    {motive : Contract → Prop}
    (step : ∀ contract, (∀ next ∈ contract.continuations, motive next) → motive contract)
    (contract : Contract) :
    motive contract := by
  induction bound : contract.height using Nat.strongRecOn generalizing contract with
  | ind bound inductionHypothesis =>
      apply step
      intro next follows
      have below := height_lt_of_mem_continuations follows
      exact inductionHypothesis next.height (bound ▸ below) next rfl

/-- The contract that is reached from another one by choosing a continuation by its index
again and again, if there always is one. -/
def descend? : Contract → List Nat → Option Contract
  | contract, [] => some contract
  | contract, index :: indices => contract.continuations[index]?.bind (descend? · indices)

@[simp] theorem descend?_nil (contract : Contract) : contract.descend? [] = some contract := by
  rw [descend?]

theorem descend?_cons
    (contract : Contract)
    (index : Nat)
    (indices : List Nat) :
    contract.descend? (index :: indices) =
      contract.continuations[index]?.bind (descend? · indices) := by
  rw [descend?]

/-- A walk ends where the descent does. -/
theorem getLast?_walk
    (contract : Contract)
    (indices : List Nat) :
    (contract.walk indices).getLast?.join = contract.descend? indices := by
  induction indices generalizing contract with
  | nil => rfl
  | cons index indices inductionHypothesis =>
      rw [walk, descend?_cons]
      cases contract.continuations[index]? with
      | none => rfl
      | some next =>
          have further : next.walk indices ≠ [] := by cases indices <;> simp [walk]
          rw [Option.bind_some, ← inductionHypothesis, List.getLast?_cons_of_ne_nil further]

/-- A descent is no longer than the height that it loses. -/
theorem length_add_height_le
    (reached : contract.descend? indices = some next) :
    indices.length + next.height ≤ contract.height := by
  induction indices generalizing contract with
  | nil =>
      obtain rfl : contract = next := by simpa using reached
      simp
  | cons index indices inductionHypothesis =>
      rw [descend?_cons] at reached
      obtain ⟨first, chosen, reached⟩ := Option.bind_eq_some_iff.mp reached
      have below := height_lt_of_mem_continuations (List.mem_of_getElem? chosen)
      have further := inductionHypothesis reached
      rw [List.length_cons]
      omega

/-- The height is the length of some descent. -/
theorem exists_descend?_of_length_eq_height (contract : Contract) :
    ∃ indices : List Nat, indices.length = contract.height ∧
      contract.descend? indices = some .close := by
  induction contract using inductionOnContinuations with
  | step contract inductionHypothesis =>
      by_cases isOver : contract = .close
      · subst isOver
        exact ⟨[], rfl, rfl⟩
      · obtain ⟨next, follows, height⟩ := exists_height_eq_succ isOver
        obtain ⟨indices, length, reached⟩ := inductionHypothesis next follows
        obtain ⟨index, chosen⟩ := List.mem_iff_getElem?.mp follows
        refine ⟨index :: indices, by rw [List.length_cons, length, height], ?_⟩
        rw [descend?_cons, chosen, Option.bind_some, reached]

/-- The indices that are picked in the first steps. -/
def picked (pick : Nat → Nat) (steps : Nat) : List Nat :=
  (List.range steps).map pick

theorem picked_succ
    (pick : Nat → Nat)
    (steps : Nat) :
    picked pick (steps + 1) = pick 0 :: picked (fun step => pick (step + 1)) steps := by
  rw [picked, List.range_succ_eq_map, List.map_cons, List.map_map]
  rfl

/-- In every step until `close` is reached, one of the continuations is picked. -/
def PicksInside (contract : Contract) (pick : Nat → Nat) : Prop :=
  ∀ steps next, contract.descend? (picked pick steps) = some next → next ≠ .close →
    pick steps < next.continuations.length

/-- Every contract but `close` has a first continuation. -/
theorem picksInside_first (contract : Contract) : contract.PicksInside fun _ => 0 :=
  fun _ _ _ isOpen => List.length_pos_iff.mpr (mt continuations_eq_nil_iff.mp isOpen)

/-- Whichever continuations are chosen, the descent reaches `close`. -/
theorem exists_descend?_eq_close
    {pick : Nat → Nat}
    (inside : contract.PicksInside pick) :
    ∃ steps ≤ contract.height, contract.descend? (picked pick steps) = some .close := by
  induction contract using inductionOnContinuations generalizing pick with
  | step contract inductionHypothesis =>
      by_cases isOver : contract = .close
      · subst isOver
        exact ⟨0, Nat.zero_le _, rfl⟩
      · have first : pick 0 < contract.continuations.length :=
          inside 0 contract (descend?_nil contract) isOver
        have follows := List.getElem_mem first
        have descends (steps : Nat) :
            contract.descend? (picked pick (steps + 1)) =
              contract.continuations[pick 0].descend?
                (picked (fun step => pick (step + 1)) steps) := by
          rw [picked_succ, descend?_cons, List.getElem?_eq_getElem first, Option.bind_some]
        obtain ⟨steps, low, reached⟩ := inductionHypothesis _ follows fun steps next reached =>
          inside (steps + 1) next ((descends steps).trans reached)
        have below := height_lt_of_mem_continuations follows
        exact ⟨steps + 1, by omega, (descends steps).trans reached⟩

end Contract
end Covenant
