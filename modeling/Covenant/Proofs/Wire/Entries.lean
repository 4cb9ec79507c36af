import Covenant.Proofs.Wire.Forms
import Covenant.Wire.Snapshot
import Mathlib.Data.List.Nodup

/-!
# Entries of states

The three maps of a state are loaded in one way: an entry is read as a binding, and
the binding is added unless its key is there already (`LoadsBindings`).  Loading a
list of entries into an empty map succeeds exactly if the bindings that are read are,
in some order, the bindings of a map, and gives that map.
-/

namespace Covenant

namespace ExtTreeMap

variable {α β : Type} [Ord α] [Std.TransOrd α] [Std.LawfulEqOrd α]

/-- A map does not list a binding twice, nor two bindings of one key. -/
theorem nodup_keys_toList (map : Std.ExtTreeMap α β) : (map.toList.map Prod.fst).Nodup := by
  apply List.pairwise_map.mpr
  apply map.distinct_keys_toList.imp
  intro _ _ apart same
  exact apart (Std.LawfulEqOrd.compare_eq_iff_eq.mpr same)

/-- A new binding joins those that a map lists. -/
theorem toList_insert_perm
    {map : Std.ExtTreeMap α β}
    {key : α}
    (absent : key ∉ map)
    (value : β) :
    (map.insert key value).toList.Perm ((key, value) :: map.toList) := by
  have absentKey : key ∉ map.toList.map Prod.fst := by
    rw [Std.ExtTreeMap.map_fst_toList_eq_keys, Std.ExtTreeMap.mem_keys]
    exact absent
  have distinct : ((key, value) :: map.toList).Nodup :=
    List.Nodup.of_map Prod.fst (List.nodup_cons.mpr ⟨absentKey, nodup_keys_toList map⟩)
  have distinctInserted : (map.insert key value).toList.Nodup :=
    List.Nodup.of_map Prod.fst (nodup_keys_toList _)
  apply (List.perm_ext_iff_of_nodup distinctInserted distinct).mpr
  rintro ⟨other, found⟩
  rw [Std.ExtTreeMap.mem_toList_iff_getElem?_eq_some, Std.ExtTreeMap.getElem?_insert,
    List.mem_cons, Std.ExtTreeMap.mem_toList_iff_getElem?_eq_some]
  split
  · rename_i same
    obtain rfl := Std.LawfulEqOrd.compare_eq_iff_eq.mp same
    simp [Std.ExtTreeMap.getElem?_eq_none absent, eq_comm]
  · rename_i different
    have apart : other ≠ key := fun same =>
      different (Std.LawfulEqOrd.compare_eq_iff_eq.mpr same.symm)
    simp [apart]

theorem getElem?_insert_of_ne
    (map : Std.ExtTreeMap α β)
    {key other : α}
    (different : other ≠ key)
    (value : β) :
    (map.insert key value)[other]? = map[other]? := by
  rw [Std.ExtTreeMap.getElem?_insert, if_neg]
  exact fun same => different (Std.LawfulEqOrd.compare_eq_iff_eq.mp same).symm

/-- Of two bindings of one key the later one counts. -/
theorem insert_insert_self
    (map : Std.ExtTreeMap α β)
    (key : α)
    (value value' : β) :
    (map.insert key value).insert key value' = map.insert key value' := by
  apply Std.ExtTreeMap.ext_getElem?
  intro other
  by_cases same : other = key
  · rw [same, Std.ExtTreeMap.getElem?_insert_self, Std.ExtTreeMap.getElem?_insert_self]
  · simp only [getElem?_insert_of_ne _ same]

theorem insert_comm
    (map : Std.ExtTreeMap α β)
    {key key' : α}
    (different : key ≠ key')
    (value value' : β) :
    (map.insert key value).insert key' value' = (map.insert key' value').insert key value := by
  apply Std.ExtTreeMap.ext_getElem?
  intro other
  by_cases same : other = key
  · rw [same, getElem?_insert_of_ne _ different, Std.ExtTreeMap.getElem?_insert_self,
      Std.ExtTreeMap.getElem?_insert_self]
  · rw [getElem?_insert_of_ne (map.insert key' value') same]
    by_cases same' : other = key'
    · rw [same', Std.ExtTreeMap.getElem?_insert_self, Std.ExtTreeMap.getElem?_insert_self]
    · simp only [getElem?_insert_of_ne _ same, getElem?_insert_of_ne _ same']

end ExtTreeMap

namespace Wire

variable {α β : Type} [Ord α] [Std.TransOrd α] [Std.LawfulEqOrd α]

/-- A way of adding entries to a map reads every entry as a binding, and adds the
binding if its key is new. -/
def LoadsBindings
    (add : Std.ExtTreeMap α β → Json → Decoded (Std.ExtTreeMap α β))
    (readsAs : Json → α × β → Prop) : Prop :=
  ∀ map entry loaded, add map entry = .ok loaded ↔
    ∃ binding, readsAs entry binding ∧ binding.1 ∉ map ∧
      map.insert binding.1 binding.2 = loaded

theorem LoadsBindings.foldlM_eq_ok_iff_perm_append
    {add : Std.ExtTreeMap α β → Json → Decoded (Std.ExtTreeMap α β)}
    {readsAs : Json → α × β → Prop}
    (loads : LoadsBindings add readsAs)
    {entries : List Json}
    {map loaded : Std.ExtTreeMap α β} :
    entries.foldlM add map = Except.ok loaded ↔
      ∃ bindings, List.Forall₂ readsAs entries bindings ∧
        loaded.toList.Perm (bindings ++ map.toList) := by
  induction entries generalizing map with
  | nil =>
      simp only [List.foldlM_nil, pure, Except.pure, Except.ok.injEq, List.forall₂_nil_left_iff,
        exists_eq_left, List.nil_append]
      constructor
      · rintro rfl
        exact .refl _
      · intro same
        exact (Std.ExtTreeMap.ext_toList same).symm
  | cons entry rest inductionHypothesis =>
      rw [List.foldlM_cons, Decoded.bind_eq_ok_iff]
      constructor
      · rintro ⟨between, added, read⟩
        obtain ⟨binding, asBinding, absent, rfl⟩ := (loads _ _ _).mp added
        obtain ⟨bindings, asBindings, same⟩ := inductionHypothesis.mp read
        refine ⟨binding :: bindings, .cons asBinding asBindings, same.trans ?_⟩
        have inserted := ExtTreeMap.toList_insert_perm absent binding.2
        exact (inserted.append_left bindings).trans List.perm_middle
      · rintro ⟨_, all, same⟩
        obtain ⟨binding, bindings, asBinding, asBindings, rfl⟩ := List.forall₂_cons_left_iff.mp all
        have distinct := (same.map Prod.fst).nodup_iff.mp (ExtTreeMap.nodup_keys_toList loaded)
        have absent : binding.1 ∉ map := by
          intro present
          have listed : binding.1 ∈ map.toList.map Prod.fst := by
            rw [Std.ExtTreeMap.map_fst_toList_eq_keys, Std.ExtTreeMap.mem_keys]
            exact present
          rw [List.cons_append, List.map_cons, List.map_append] at distinct
          exact (List.nodup_cons.mp distinct).1 (List.mem_append_right _ listed)
        refine ⟨_, (loads _ _ _).mpr ⟨binding, asBinding, absent, rfl⟩,
          inductionHypothesis.mpr ⟨bindings, asBindings, same.trans ?_⟩⟩
        have inserted := ExtTreeMap.toList_insert_perm absent binding.2
        exact List.perm_middle.symm.trans (inserted.symm.append_left bindings)

/-- Loading entries into an empty map gives the map that has the bindings they are
read as, provided that there is one. -/
theorem LoadsBindings.foldlM_eq_ok_iff
    {add : Std.ExtTreeMap α β → Json → Decoded (Std.ExtTreeMap α β)}
    {readsAs : Json → α × β → Prop}
    (loads : LoadsBindings add readsAs)
    {entries : List Json}
    {loaded : Std.ExtTreeMap α β} :
    entries.foldlM add ∅ = Except.ok loaded ↔
      ∃ bindings, List.Forall₂ readsAs entries bindings ∧ loaded.toList.Perm bindings := by
  have nothing : (∅ : Std.ExtTreeMap α β).toList = [] :=
    Std.ExtTreeMap.toList_eq_nil_iff.mpr rfl
  rw [loads.foldlM_eq_ok_iff_perm_append, nothing]
  simp

end Wire

namespace State

open Wire (LoadsBindings)

/-- An entry is read as an account and what it holds. -/
def ReadsBalance (entry : Json) (binding : Account × Nat) : Prop :=
  ∃ owner asset, entry = .array [.array [owner, asset], .integer binding.2] ∧
    Party.decode owner = .ok binding.1.owner ∧ Asset.decode asset = .ok binding.1.asset

/-- An entry is read as a choice and the number that was picked. -/
def ReadsChoice (entry : Json) (binding : ChoiceId × Int) : Prop :=
  ∃ choice, entry = .array [choice, .integer binding.2] ∧ ChoiceId.decode choice = .ok binding.1

/-- An entry is read as a name and its value. -/
def ReadsBinding (entry : Json) (binding : String × Int) : Prop :=
  entry = .array [.string binding.1, .integer binding.2]

/-- Adding a new binding succeeds, and adding a known one fails. -/
theorem insertNew_eq_ok_iff
    {α β : Type} [Ord α] [Std.TransOrd α]
    {map loaded : Std.ExtTreeMap α β}
    {key : α}
    {value : β}
    {reason : DecodeError} :
    (if key ∈ map then .error reason else pure (map.insert key value) : Decoded _) = .ok loaded ↔
      key ∉ map ∧ map.insert key value = loaded := by
  by_cases present : key ∈ map <;> simp [present, pure, Except.pure]

theorem loadsBindings_addAccount : LoadsBindings addAccount ReadsBalance := by
  intro accounts entry loaded
  simp only [addAccount, Decoded.bind_eq_ok_iff, Prod.exists, Json.readPair_eq_ok_iff,
    Json.readNatural_eq_ok_iff, insertNew_eq_ok_iff]
  constructor
  · rintro ⟨key, amount, rfl, owner, asset, rfl, account, readOwner, token, readAsset, n, rfl,
      absent, inserted⟩
    exact ⟨⟨account, token⟩, n, ⟨owner, asset, rfl, readOwner, readAsset⟩, absent, inserted⟩
  · rintro ⟨⟨account, token⟩, n, ⟨owner, asset, rfl, readOwner, readAsset⟩, absent, inserted⟩
    exact ⟨_, _, rfl, owner, asset, rfl, account, readOwner, token, readAsset, n, rfl,
      absent, inserted⟩

/-- Where the value of a new binding is read last, it has to be read. -/
theorem readNew_eq_ok_iff
    {α β : Type} [Ord α] [Std.TransOrd α]
    {map loaded : Std.ExtTreeMap α β}
    {key : α}
    {read : Decoded β}
    {reason : DecodeError} :
    (if key ∈ map then .error reason
      else read >>= fun value => pure (map.insert key value) : Decoded _) = .ok loaded ↔
      ∃ value, read = .ok value ∧ key ∉ map ∧ map.insert key value = loaded := by
  by_cases present : key ∈ map
  · simp [present]
  · simp [present, Decoded.bind_eq_ok_iff, pure, Except.pure]

theorem loadsBindings_addChoice : LoadsBindings addChoice ReadsChoice := by
  intro choices entry loaded
  simp only [addChoice, Decoded.bind_eq_ok_iff, Prod.exists, Json.readPair_eq_ok_iff,
    Json.readInteger_eq_ok_iff, readNew_eq_ok_iff]
  constructor
  · rintro ⟨key, _, rfl, choice, readChoice, chosen, rfl, absent, inserted⟩
    exact ⟨choice, chosen, ⟨key, rfl, readChoice⟩, absent, inserted⟩
  · rintro ⟨choice, chosen, ⟨key, rfl, readChoice⟩, absent, inserted⟩
    exact ⟨key, _, rfl, choice, readChoice, chosen, rfl, absent, inserted⟩

theorem loadsBindings_addBinding : LoadsBindings addBinding ReadsBinding := by
  intro boundValues entry loaded
  simp only [addBinding, Decoded.bind_eq_ok_iff, Prod.exists, Json.readPair_eq_ok_iff,
    Json.readText_eq_ok_iff, Json.readInteger_eq_ok_iff, readNew_eq_ok_iff]
  constructor
  · rintro ⟨_, _, rfl, name, rfl, value, rfl, absent, inserted⟩
    exact ⟨name, value, rfl, absent, inserted⟩
  · rintro ⟨name, value, rfl, absent, inserted⟩
    exact ⟨_, _, rfl, name, rfl, value, rfl, absent, inserted⟩

theorem readEntries_eq_ok_iff
    {key : String}
    {members : Json.Members}
    {entries : List Json} :
    readEntries key members = .ok entries ↔ members.lookup key = some (.array entries) := by
  simp only [readEntries, Decoded.bind_eq_ok_iff, Json.Members.read_eq_ok_iff,
    Json.readArray_eq_ok_iff, exists_eq_right]

/-- When the members of an object stand for a state, entry by entry. -/
theorem decodeMembers_eq_ok_iff
    {members : Json.Members}
    {state : State} :
    decodeMembers members = .ok state ↔
      (∀ key ∈ Json.Members.keys members, key ∈ documentKeys) ∧
      (∃ entries bindings, members.lookup "accounts" = some (.array entries) ∧
        List.Forall₂ ReadsBalance entries bindings ∧ state.accounts.toList.Perm bindings) ∧
      (∃ entries bindings, members.lookup "choices" = some (.array entries) ∧
        List.Forall₂ ReadsChoice entries bindings ∧ state.choices.toList.Perm bindings) ∧
      (∃ entries bindings, members.lookup "boundValues" = some (.array entries) ∧
        List.Forall₂ ReadsBinding entries bindings ∧ state.boundValues.toList.Perm bindings) ∧
      members.lookup "minTime" = some (.integer state.minTime.toInt) := by
  rw [← Json.Members.extraKey?_eq_none_iff]
  unfold decodeMembers
  split
  · rename_i key extra
    simp [extra]
  · rename_i noExtra
    simp only [noExtra, true_and, Decoded.bind_eq_ok_iff, readEntries_eq_ok_iff,
      Json.Members.read_eq_ok_iff, Json.readTime_eq_ok_iff,
      loadsBindings_addAccount.foldlM_eq_ok_iff, loadsBindings_addChoice.foldlM_eq_ok_iff,
      loadsBindings_addBinding.foldlM_eq_ok_iff]
    constructor
    · rintro ⟨accounts, foundAccounts, _, ⟨balances, readBalances, allAccounts⟩,
        choices, foundChoices, _, ⟨picks, readPicks, allChoices⟩,
        values, foundValues, _, ⟨bindings, readBindings, allValues⟩,
        _, foundTime, _, rfl, same⟩
      cases same
      exact ⟨⟨accounts, balances, foundAccounts, readBalances, allAccounts⟩,
        ⟨choices, picks, foundChoices, readPicks, allChoices⟩,
        ⟨values, bindings, foundValues, readBindings, allValues⟩, foundTime⟩
    · rintro ⟨⟨accounts, balances, foundAccounts, readBalances, allAccounts⟩,
        ⟨choices, picks, foundChoices, readPicks, allChoices⟩,
        ⟨values, bindings, foundValues, readBindings, allValues⟩, foundTime⟩
      exact ⟨accounts, foundAccounts, _, ⟨balances, readBalances, allAccounts⟩,
        choices, foundChoices, _, ⟨picks, readPicks, allChoices⟩,
        values, foundValues, _, ⟨bindings, readBindings, allValues⟩,
        _, foundTime, _, rfl, rfl⟩

/-- What the steps give in which the members of a state are read. -/
structure ReadsStepwise
    (members : Json.Members)
    (state : State)
    (accounts choices boundValues : List Json) :
    Prop where
  noExtra : Json.Members.extraKey? documentKeys members = none
  readAccounts : readEntries "accounts" members = .ok accounts
  loadsAccounts : accounts.foldlM addAccount ∅ = Except.ok state.accounts
  readChoices : readEntries "choices" members = .ok choices
  loadsChoices : choices.foldlM addChoice ∅ = Except.ok state.choices
  readValues : readEntries "boundValues" members = .ok boundValues
  loadsValues : boundValues.foldlM addBinding ∅ = Except.ok state.boundValues
  readTime : members.read "State" "minTime" = .ok (.integer state.minTime.toInt)
  fitsTime : (Json.integer state.minTime.toInt).readTime "State" = .ok state.minTime

theorem exists_readsStepwise
    {members : Json.Members}
    {state : State}
    (decoded : decodeMembers members = .ok state) :
    ∃ accounts choices boundValues,
      ReadsStepwise members state accounts choices boundValues := by
  obtain ⟨within, ⟨accounts, balances, foundAccounts, readBalances, allAccounts⟩,
    ⟨choices, picks, foundChoices, readPicks, allChoices⟩,
    ⟨values, bindings, foundValues, readBindings, allValues⟩, foundTime⟩ :=
    decodeMembers_eq_ok_iff.mp decoded
  exact ⟨accounts, choices, values,
    { noExtra := Json.Members.extraKey?_eq_none_iff.mpr within
      readAccounts := readEntries_eq_ok_iff.mpr foundAccounts
      loadsAccounts := loadsBindings_addAccount.foldlM_eq_ok_iff.mpr ⟨_, readBalances, allAccounts⟩
      readChoices := readEntries_eq_ok_iff.mpr foundChoices
      loadsChoices := loadsBindings_addChoice.foldlM_eq_ok_iff.mpr ⟨_, readPicks, allChoices⟩
      readValues := readEntries_eq_ok_iff.mpr foundValues
      loadsValues := loadsBindings_addBinding.foldlM_eq_ok_iff.mpr ⟨_, readBindings, allValues⟩
      readTime := Json.Members.read_eq_ok_iff.mpr foundTime
      fitsTime := Json.readTime_eq_ok_iff.mpr rfl }⟩

theorem decode_eq_ok_iff
    {document : Json}
    {state : State} :
    decode document = .ok state ↔
      ∃ members, document = .object members ∧ decodeMembers members = .ok state := by
  cases document <;> simp [decode]

end State
end Covenant
