import Covenant.Ledger.State
import Mathlib.Logic.Function.Basic

/-!
# What a history leaves

The contents of a state are what its look-ups find.  A change has an effect on contents
that does not mention maps: a binding is set, removed, or replaced along with all others.
What a state holds after any number of changes is what their effects, one after the
other, make of the contents at the start (`State.contents_foldl_apply`), and contents are
all there is to a state (`State.contents_injective`).
-/

namespace Covenant

section

variable {α β : Type} [Ord α] [Std.TransOrd α] [Std.LawfulEqOrd α] [DecidableEq α]

theorem ExtTreeMap.getElem?_insert_eq_update
    (map : Std.ExtTreeMap α β)
    (key : α)
    (value : β) :
    (fun other => (map.insert key value)[other]?) =
      Function.update (fun other => map[other]?) key (some value) := by
  funext other
  by_cases same : other = key
  · simp [same]
  · have different : compare key other ≠ .eq := fun equal =>
      same (Std.LawfulEqOrd.eq_of_compare equal).symm
    simp [Std.ExtTreeMap.getElem?_insert, same, different]

theorem ExtTreeMap.getElem?_erase_eq_update
    (map : Std.ExtTreeMap α β)
    (key : α) :
    (fun other => (map.erase key)[other]?) =
      Function.update (fun other => map[other]?) key none := by
  funext other
  by_cases same : other = key
  · simp [same]
  · have different : compare key other ≠ .eq := fun equal =>
      same (Std.LawfulEqOrd.eq_of_compare equal).symm
    simp [Std.ExtTreeMap.getElem?_erase, same, different]

end

namespace State

/-- What a state holds: the result of every look-up, and the earliest time. -/
@[ext]
structure Contents where
  /-- What an account is listed with. -/
  accounts : Account → Option Nat
  /-- What was picked for a choice. -/
  choices : ChoiceId → Option Int
  /-- What a name stands for. -/
  boundValues : String → Option Int
  /-- The earliest time at which the contract goes on. -/
  minTime : Int64

/-- What look-ups find in a state. -/
def contents (state : State) : Contents where
  accounts account := state.accounts[account]?
  choices choice := state.choices[choice]?
  boundValues name := state.boundValues[name]?
  minTime := state.minTime

/-- Nothing is held, chosen or named. -/
def Contents.initial (minTime : Int64) : Contents :=
  ⟨fun _ => none, fun _ => none, fun _ => none, minTime⟩

theorem contents_initial (minTime : Int64) :
    (initial minTime).contents = .initial minTime := by
  simp [contents, initial, Contents.initial]

/-- States that hold the same are the same. -/
theorem contents_injective : Function.Injective contents := by
  intro state state' same
  obtain ⟨accounts, choices, boundValues, minTime⟩ := state
  obtain ⟨accounts', choices', boundValues', minTime'⟩ := state'
  obtain ⟨sameAccounts, sameChoices, sameValues, rfl⟩ := Contents.ext_iff.mp same
  obtain rfl : accounts = accounts' := Std.ExtTreeMap.ext_getElem? (congrFun sameAccounts)
  obtain rfl : choices = choices' := Std.ExtTreeMap.ext_getElem? (congrFun sameChoices)
  obtain rfl : boundValues = boundValues' := Std.ExtTreeMap.ext_getElem? (congrFun sameValues)
  rfl

/-- What a change does to what is held. -/
def Update.effect (contents : Contents) : Update → Contents
  | setAccount account amount =>
    { contents with accounts := Function.update contents.accounts account (some amount) }
  | removeAccount account =>
    { contents with accounts := Function.update contents.accounts account none }
  | setChoice choice chosen =>
    { contents with choices := Function.update contents.choices choice (some chosen) }
  | removeChoice choice =>
    { contents with choices := Function.update contents.choices choice none }
  | setValue name value =>
    { contents with boundValues := Function.update contents.boundValues name (some value) }
  | removeValue name =>
    { contents with boundValues := Function.update contents.boundValues name none }
  | setMinTime minTime => { contents with minTime := minTime }
  | load loaded => loaded.contents

theorem contents_apply
    (state : State)
    (update : Update) :
    (update.apply state).contents = update.effect state.contents := by
  cases update with
  | setAccount account amount =>
      exact Contents.ext (ExtTreeMap.getElem?_insert_eq_update ..) rfl rfl rfl
  | removeAccount account =>
      exact Contents.ext (ExtTreeMap.getElem?_erase_eq_update ..) rfl rfl rfl
  | setChoice choice chosen =>
      exact Contents.ext rfl (ExtTreeMap.getElem?_insert_eq_update ..) rfl rfl
  | removeChoice choice =>
      exact Contents.ext rfl (ExtTreeMap.getElem?_erase_eq_update ..) rfl rfl
  | setValue name value =>
      exact Contents.ext rfl rfl (ExtTreeMap.getElem?_insert_eq_update ..) rfl
  | removeValue name =>
      exact Contents.ext rfl rfl (ExtTreeMap.getElem?_erase_eq_update ..) rfl
  | setMinTime minTime => rfl
  | load loaded => rfl

theorem contents_foldl_apply
    (state : State)
    (updates : List Update) :
    (updates.foldl Update.apply state).contents =
      updates.foldl Update.effect state.contents := by
  induction updates generalizing state with
  | nil => rfl
  | cons update updates inductionHypothesis =>
      rw [List.foldl_cons, List.foldl_cons, inductionHypothesis, contents_apply]

/-- The state after some changes to a state that holds nothing. -/
def afterUpdates (minTime : Int64) (updates : List Update) : State :=
  updates.foldl Update.apply (initial minTime)

/-- What some changes to empty contents leave. -/
def Contents.afterUpdates (minTime : Int64) (updates : List Update) : Contents :=
  updates.foldl Update.effect (.initial minTime)

/-- A state that came about by changes holds what their effects leave. -/
theorem contents_afterUpdates
    (minTime : Int64)
    (updates : List Update) :
    (State.afterUpdates minTime updates).contents = .afterUpdates minTime updates := by
  rw [State.afterUpdates, contents_foldl_apply, contents_initial, Contents.afterUpdates]

end State
end Covenant
