import Covenant.Proofs.Ledger.History
import Covenant.Proofs.Ledger.KeyOrder
import Covenant.Proofs.Wire.CanonicalText

/-!
# Snapshots

The document of a state lists what the state holds: every live binding once, and the
bindings of a map in the order of their keys (`State.isSnapshot_encode`).  It depends on
nothing else, so the canonical texts of two states are the same exactly if the states
hold the same, whatever changes they went through (`State.canonical_afterUpdates`).
-/

namespace Covenant
namespace State

/-- A list has every live binding once, and its keys ascend. -/
structure ListsLive
    {α β : Type}
    (before : α → α → Prop)
    (lookup : α → Option β)
    (bindings : List (α × β)) :
    Prop where
  /-- The keys ascend strictly. -/
  ascending : bindings.Pairwise fun binding later => before binding.1 later.1
  /-- No key comes twice. -/
  once : (bindings.map Prod.fst).Nodup
  /-- What is listed is what a look-up finds. -/
  live : ∀ key value, (key, value) ∈ bindings ↔ lookup key = some value

/-- The bindings that a map lists are the live ones. -/
theorem listsLive_toList
    {α β : Type} [Ord α] [Std.TransOrd α] [Std.LawfulEqOrd α]
    {before : α → α → Prop}
    (compare_eq_lt_iff : ∀ {first second : α}, compare first second = .lt ↔ before first second)
    (map : Std.ExtTreeMap α β) :
    ListsLive before (fun key => map[key]?) map.toList where
  ascending := map.ordered_keys_toList.imp compare_eq_lt_iff.mp
  once := ExtTreeMap.nodup_keys_toList map
  live _ _ := Std.ExtTreeMap.mem_toList_iff_getElem?_eq_some

/-- A document lists contents: the live bindings of every map once and in ascending
order, and the earliest time. -/
def IsSnapshot (contents : Contents) (document : Json) : Prop :=
  ∃ accounts choices boundValues,
    document = .object [
      ("accounts", .array (accounts.map fun entry => encodeBalance entry.1 entry.2)),
      ("choices", .array (choices.map fun entry => encodeChoice entry.1 entry.2)),
      ("boundValues", .array (boundValues.map fun entry => encodeBinding entry.1 entry.2)),
      ("minTime", .integer contents.minTime.toInt)] ∧
    ListsLive Account.Before contents.accounts accounts ∧
    ListsLive ChoiceId.Before contents.choices choices ∧
    ListsLive TextBefore contents.boundValues boundValues

theorem isSnapshot_encode (state : State) : IsSnapshot state.contents state.encode :=
  ⟨_, _, _, rfl, listsLive_toList Account.compare_eq_lt_iff state.accounts,
    listsLive_toList ChoiceId.compare_eq_lt_iff state.choices,
    listsLive_toList compare_text_eq_lt_iff state.boundValues⟩

/-- The canonical text of a state is the text of no other. -/
theorem eq_of_compact_encode_eq
    {state state' : State}
    (same : state.encode.compact = state'.encode.compact) :
    state = state' :=
  encode_injective ((legible_encode state).eq_of_compact_eq (legible_encode state') same)

/-- However a state came about, its document lists every binding that its history leaves
once and in the order of keys.  The canonical texts of two states are the same exactly if
all look-ups agree and the earliest times do. -/
theorem canonical_afterUpdates
    (minTime minTime' : Int64)
    (updates updates' : List Update) :
    let state := afterUpdates minTime updates
    let state' := afterUpdates minTime' updates'
    IsSnapshot (.afterUpdates minTime updates) state.encode ∧
      (toCanonicalString state = toCanonicalString state' ↔
        (∀ account : Account, state.accounts[account]? = state'.accounts[account]?) ∧
        (∀ choice : ChoiceId, state.choices[choice]? = state'.choices[choice]?) ∧
        (∀ name : String, state.boundValues[name]? = state'.boundValues[name]?) ∧
        state.minTime = state'.minTime) := by
  intro state state'
  refine ⟨?_, fun sameText => ?_, ?_⟩
  · rw [← contents_afterUpdates]
    exact isSnapshot_encode state
  · rw [eq_of_compact_encode_eq sameText]
    exact ⟨fun _ => rfl, fun _ => rfl, fun _ => rfl, rfl⟩
  · rintro ⟨accounts, choices, boundValues, minTime⟩
    have sameContents : state.contents = state'.contents :=
      Contents.ext (funext accounts) (funext choices) (funext boundValues) minTime
    rw [contents_injective sameContents]

end State
end Covenant
