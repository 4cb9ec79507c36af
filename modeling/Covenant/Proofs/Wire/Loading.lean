import Covenant.Proofs.Wire.KeySets

/-!
# Loading snapshots

The document of a state lists entries under three keys.  If every entry can be read, the
document is read exactly if no key comes twice in one of the lists; the maps then have the
bindings that are listed and no others, in whatever order they are listed.  Otherwise it is
refused for the first key that is repeated (`State.isFaithful_of_writtenIn`).
-/

namespace Covenant

section

variable {α : Type} [DecidableEq α]

/-- The first item of a list that has been seen before: among the given ones, or further in
front of the list. -/
def firstRepeated? : List α → List α → Option α
  | _, [] => none
  | seen, item :: rest => if item ∈ seen then some item else firstRepeated? (item :: seen) rest

theorem firstRepeated?_of_mem
    {seen : List α}
    {item : α}
    (known : item ∈ seen)
    (rest : List α) :
    firstRepeated? seen (item :: rest) = some item :=
  if_pos known

theorem firstRepeated?_of_not_mem
    {seen : List α}
    {item : α}
    (isNew : item ∉ seen)
    (rest : List α) :
    firstRepeated? seen (item :: rest) = firstRepeated? (item :: seen) rest :=
  if_neg isNew

theorem firstRepeated?_eq_none_iff
    {seen items : List α} :
    firstRepeated? seen items = none ↔ items.Nodup ∧ ∀ item ∈ items, item ∉ seen := by
  induction items generalizing seen with
  | nil => simp [firstRepeated?]
  | cons item rest inductionHypothesis =>
      by_cases known : item ∈ seen
      · simp [firstRepeated?_of_mem known, known]
      · rw [firstRepeated?_of_not_mem known, inductionHypothesis]
        simp only [List.nodup_cons, List.mem_cons, not_or]
        grind

end

namespace ExtTreeMap

variable {α β : Type} [Ord α] [Std.TransOrd α] [Std.LawfulEqOrd α]

/-- Bindings with distinct keys are those of a map. -/
theorem exists_toList_perm
    {bindings : List (α × β)}
    (distinct : (bindings.map Prod.fst).Nodup) :
    ∃ map : Std.ExtTreeMap α β, map.toList.Perm bindings := by
  induction bindings with
  | nil => exact ⟨∅, by rw [Std.ExtTreeMap.toList_eq_nil_iff.mpr rfl]⟩
  | cons binding rest inductionHypothesis =>
      obtain ⟨absent, distinct⟩ := List.nodup_cons.mp distinct
      obtain ⟨map, same⟩ := inductionHypothesis distinct
      have isNew : binding.1 ∉ map := by
        rw [← Std.ExtTreeMap.mem_keys, ← Std.ExtTreeMap.map_fst_toList_eq_keys,
          (same.map Prod.fst).mem_iff]
        exact absent
      exact ⟨map.insert binding.1 binding.2, (toList_insert_perm isNew _).trans (same.cons _)⟩

/-- A map has the given bindings, each once, and no others. -/
structure HasExactly (map : Std.ExtTreeMap α β) (bindings : List (α × β)) : Prop where
  getElem?_eq_some_iff : ∀ key value, map[key]? = some value ↔ (key, value) ∈ bindings
  size : map.size = bindings.length

theorem hasExactly_of_perm
    {map : Std.ExtTreeMap α β}
    {bindings : List (α × β)}
    (same : map.toList.Perm bindings) :
    HasExactly map bindings where
  getElem?_eq_some_iff _ _ :=
    Std.ExtTreeMap.mem_toList_iff_getElem?_eq_some.symm.trans same.mem_iff
  size := Std.ExtTreeMap.length_toList.symm.trans same.length_eq

end ExtTreeMap

namespace Wire

variable {α β : Type} [Ord α] [Std.TransOrd α] [Std.LawfulEqOrd α]
variable {add : Std.ExtTreeMap α β → Json → Decoded (Std.ExtTreeMap α β)}
variable {readsAs : Json → α × β → Prop}

/-- A way of adding entries to a map refuses an entry whose key is there already. -/
def RefusesKnown
    (add : Std.ExtTreeMap α β → Json → Decoded (Std.ExtTreeMap α β))
    (readsAs : Json → α × β → Prop)
    (context : String) : Prop :=
  ∀ map entry binding, readsAs entry binding → binding.1 ∈ map →
    ∃ key, add map entry = .error (.duplicateKey context key)

namespace LoadsBindings

/-- An entry is read as one binding. -/
theorem eq_of_readsAs
    (loads : LoadsBindings add readsAs)
    {entry : Json}
    {binding binding' : α × β}
    (reads : readsAs entry binding)
    (reads' : readsAs entry binding') :
    binding = binding' := by
  have added (binding : α × β) (reads : readsAs entry binding) :=
    (loads ∅ entry _).mpr ⟨binding, reads, Std.ExtTreeMap.not_mem_empty, rfl⟩
  have same := Except.ok.inj ((added binding reads).symm.trans (added binding' reads'))
  have listed (binding : α × β) :
      ((∅ : Std.ExtTreeMap α β).insert binding.1 binding.2).toList.Perm [binding] := by
    have inserted := ExtTreeMap.toList_insert_perm
      (Std.ExtTreeMap.not_mem_empty (k := binding.1)) binding.2
    rwa [Std.ExtTreeMap.toList_eq_nil_iff.mpr rfl] at inserted
  have perm := (listed binding).symm.trans (same ▸ listed binding')
  exact List.singleton_perm_singleton.mp perm

theorem foldlM_eq_ok_iff_perm
    (loads : LoadsBindings add readsAs)
    {entries : List Json}
    {bindings : List (α × β)}
    (reads : List.Forall₂ readsAs entries bindings)
    {loaded : Std.ExtTreeMap α β} :
    entries.foldlM add ∅ = Except.ok loaded ↔ loaded.toList.Perm bindings := by
  rw [loads.foldlM_eq_ok_iff]
  constructor
  · rintro ⟨others, readsOthers, same⟩
    have unique : Relator.RightUnique readsAs := fun _ _ _ => loads.eq_of_readsAs
    rwa [← List.right_unique_forall₂' unique readsOthers reads]
  · exact fun same => ⟨bindings, reads, same⟩

/-- Entries that can be read are loaded exactly if no key comes twice. -/
theorem exists_foldlM_eq_ok_iff
    (loads : LoadsBindings add readsAs)
    {entries : List Json}
    {bindings : List (α × β)}
    (reads : List.Forall₂ readsAs entries bindings) :
    (∃ loaded, entries.foldlM add ∅ = Except.ok loaded) ↔ (bindings.map Prod.fst).Nodup := by
  simp only [loads.foldlM_eq_ok_iff_perm reads]
  constructor
  · rintro ⟨loaded, same⟩
    exact (same.map Prod.fst).nodup_iff.mp (ExtTreeMap.nodup_keys_toList loaded)
  · exact ExtTreeMap.exists_toList_perm

/-- Loading goes on as far as the first entry whose key is that of an earlier one, or of a
binding that is there from the start. -/
theorem exists_refused_of_firstRepeated
    [DecidableEq α]
    (loads : LoadsBindings add readsAs)
    {entries : List Json}
    {bindings : List (α × β)}
    (reads : List.Forall₂ readsAs entries bindings)
    {seen : List α}
    {map : Std.ExtTreeMap α β}
    (sameKeys : ∀ key, key ∈ seen ↔ key ∈ map)
    {key : α}
    (first : firstRepeated? seen (bindings.map Prod.fst) = some key) :
    ∃ entry ∈ entries, ∃ binding between, readsAs entry binding ∧ binding.1 = key ∧
      binding.1 ∈ between ∧ ∀ reason, add between entry = Except.error reason →
        entries.foldlM add map = Except.error reason := by
  induction reads generalizing seen map with
  | nil => cases first
  | @cons entry binding entries bindings readsEntry _ inductionHypothesis =>
      rw [List.map_cons] at first
      by_cases known : binding.1 ∈ seen
      · rw [firstRepeated?_of_mem known] at first
        refine ⟨entry, List.mem_cons_self, binding, map, readsEntry, Option.some.inj first,
          (sameKeys _).mp known, fun reason refused => ?_⟩
        rw [List.foldlM_cons, refused, Decoded.error_bind]
      · rw [firstRepeated?_of_not_mem known] at first
        have absent : binding.1 ∉ map := mt (sameKeys _).mpr known
        have added : add map entry = .ok (map.insert binding.1 binding.2) :=
          (loads _ _ _).mpr ⟨binding, readsEntry, absent, rfl⟩
        have sameInserted : ∀ other,
            other ∈ binding.1 :: seen ↔ other ∈ map.insert binding.1 binding.2 := by
          intro other
          rw [List.mem_cons, Std.ExtTreeMap.mem_insert, sameKeys,
            Std.LawfulEqOrd.compare_eq_iff_eq, eq_comm]
        obtain ⟨refusedEntry, listed, refusedBinding, between, readsRefused, isKey, present,
          refuse⟩ := inductionHypothesis sameInserted first
        refine ⟨refusedEntry, List.mem_cons_of_mem _ listed, refusedBinding, between,
          readsRefused, isKey, present, fun reason refused => ?_⟩
        rw [List.foldlM_cons, added, Decoded.ok_bind, refuse reason refused]

/-- Entries of which two have one key are not loaded. -/
theorem exists_foldlM_eq_error
    (loads : LoadsBindings add readsAs)
    {context : String}
    (refuses : RefusesKnown add readsAs context)
    {entries : List Json}
    {bindings : List (α × β)}
    (reads : List.Forall₂ readsAs entries bindings)
    (repeated : ¬(bindings.map Prod.fst).Nodup) :
    ∃ key, entries.foldlM add ∅ = Except.error (.duplicateKey context key) := by
  classical
  obtain ⟨key, first⟩ : ∃ key, firstRepeated? [] (bindings.map Prod.fst) = some key := by
    apply Option.ne_none_iff_exists'.mp
    intro none
    exact repeated (firstRepeated?_eq_none_iff.mp none).1
  have nothingLoaded : ∀ key, key ∈ ([] : List α) ↔ key ∈ (∅ : Std.ExtTreeMap α β) := by simp
  obtain ⟨entry, _, binding, between, readsEntry, _, present, refuse⟩ :=
    loads.exists_refused_of_firstRepeated reads nothingLoaded first
  obtain ⟨shown, refused⟩ := refuses between entry binding readsEntry present
  exact ⟨shown, refuse _ refused⟩

end LoadsBindings
end Wire

namespace State

open Wire (RefusesKnown)

/-- The error of an account that is there already says only that its key is a pair. -/
theorem addAccount_of_mem
    {accounts : Std.ExtTreeMap Account Nat}
    {entry : Json}
    {binding : Account × Nat}
    (reads : ReadsBalance entry binding)
    (present : binding.1 ∈ accounts) :
    addAccount accounts entry = .error (.duplicateKey "accounts" "array of 2") := by
  obtain ⟨owner, asset, rfl, readOwner, readAsset⟩ := reads
  have readAmount : (Json.integer binding.2).readNatural "accounts" = .ok binding.2 :=
    Json.readNatural_eq_ok_iff.mpr rfl
  have described : (Json.array [owner, asset]).describe = "array of 2" := by
    simp only [Json.describe, List.length_cons, List.length_nil]
    decide
  simp only [addAccount, Json.readPair, readOwner, readAsset, readAmount, Decoded.ok_bind,
    described]
  rw [if_pos present]

/-- The error of a choice that is there already describes its document. -/
theorem addChoice_of_mem
    {choices : Std.ExtTreeMap ChoiceId Int}
    {document : Json}
    {choice : ChoiceId}
    (readChoice : ChoiceId.decode document = .ok choice)
    (present : choice ∈ choices)
    (chosen : Json) :
    addChoice choices (.array [document, chosen]) =
      .error (.duplicateKey "choices" document.describe) := by
  simp only [addChoice, Json.readPair, readChoice, Decoded.ok_bind]
  rw [if_pos present]

/-- The error of a name that is there already gives the name. -/
theorem addBinding_of_mem
    {boundValues : Std.ExtTreeMap String Int}
    {name : String}
    (present : name ∈ boundValues)
    (value : Json) :
    addBinding boundValues (.array [.string name, value]) =
      .error (.duplicateKey "boundValues" name) := by
  simp only [addBinding, Json.readPair, Json.readText, Decoded.ok_bind]
  rw [if_pos present]

theorem refusesKnown_addAccount : RefusesKnown addAccount ReadsBalance "accounts" :=
  fun _ _ _ reads present => ⟨_, addAccount_of_mem reads present⟩

theorem refusesKnown_addChoice : RefusesKnown addChoice ReadsChoice "choices" := by
  rintro choices _ binding ⟨choice, rfl, readChoice⟩ present
  exact ⟨_, addChoice_of_mem readChoice present _⟩

theorem refusesKnown_addBinding : RefusesKnown addBinding ReadsBinding "boundValues" := by
  rintro boundValues _ binding rfl present
  exact ⟨_, addBinding_of_mem present _⟩

/-- What the document of a state lists, in the order in which it does. -/
structure Listing where
  accounts : List (Account × Nat)
  choices : List (ChoiceId × Int)
  boundValues : List (String × Int)
  minTime : Int64

/-- Under a key, an object has an array whose entries are read as some bindings. -/
def EntriesUnder
    {β : Type}
    (readsAs : Json → β → Prop)
    (key : String)
    (members : Json.Members)
    (bindings : List β) : Prop :=
  ∃ entries, members.lookup key = some (.array entries) ∧ List.Forall₂ readsAs entries bindings

namespace Listing

/-- An object has exactly the four keys of a state, and everything under them can be read,
whether or not some key of an entry is repeated. -/
structure WrittenIn (members : Json.Members) (listing : Listing) : Prop where
  keys : (Json.Members.keys members).Perm documentKeys
  accounts : EntriesUnder ReadsBalance "accounts" members listing.accounts
  choices : EntriesUnder ReadsChoice "choices" members listing.choices
  boundValues : EntriesUnder ReadsBinding "boundValues" members listing.boundValues
  minTime : members.lookup "minTime" = some (.integer listing.minTime.toInt)

/-- In none of the three lists a key comes twice. -/
structure Distinct (listing : Listing) : Prop where
  accounts : (listing.accounts.map Prod.fst).Nodup
  choices : (listing.choices.map Prod.fst).Nodup
  boundValues : (listing.boundValues.map Prod.fst).Nodup

/-- The first of the three lists in which a key comes twice. -/
def repeated? (listing : Listing) : Option String :=
  if ¬(listing.accounts.map Prod.fst).Nodup then some "accounts"
  else if ¬(listing.choices.map Prod.fst).Nodup then some "choices"
  else if ¬(listing.boundValues.map Prod.fst).Nodup then some "boundValues"
  else none

end Listing

/-- A state holds what is listed and nothing else. -/
structure Holds (state : State) (listing : Listing) : Prop where
  accounts : ExtTreeMap.HasExactly state.accounts listing.accounts
  choices : ExtTreeMap.HasExactly state.choices listing.choices
  boundValues : ExtTreeMap.HasExactly state.boundValues listing.boundValues
  minTime : state.minTime = listing.minTime
  /-- A listed account has the balance that is listed. -/
  balance : ∀ account amount, (account, amount) ∈ listing.accounts → state.balance account = amount
  /-- Every other account has the balance zero. -/
  balance_other : ∀ account, account ∉ listing.accounts.map Prod.fst → state.balance account = 0

/-- Under a key, two objects have arrays of the same items in some order. -/
def SameItems (key : String) (members members' : Json.Members) : Prop :=
  ∃ items items', members.lookup key = some (.array items) ∧
    members'.lookup key = some (.array items') ∧ items.Perm items'

/-- Two objects list the same entries under the three keys, in any order, and have the same
time. -/
structure SameEntries (members members' : Json.Members) : Prop where
  keys : (Json.Members.keys members).Perm (Json.Members.keys members')
  accounts : SameItems "accounts" members members'
  choices : SameItems "choices" members members'
  boundValues : SameItems "boundValues" members members'
  minTime : members.lookup "minTime" = members'.lookup "minTime"

variable {members members' : Json.Members} {listing : Listing} {state : State}

namespace EntriesUnder

variable {α β : Type} {key : String}

/-- The entries that are listed under a key are read in any other order as well. -/
theorem of_sameItems
    {readsAs : Json → β → Prop}
    {bindings : List β}
    (under : EntriesUnder readsAs key members bindings)
    (same : SameItems key members members') :
    ∃ bindings', EntriesUnder readsAs key members' bindings' ∧ bindings.Perm bindings' := by
  obtain ⟨entries, found, reads⟩ := under
  obtain ⟨_, items', found', foundItems, perm⟩ := same
  obtain rfl := Json.array.inj (Option.some.inj (found.symm.trans found'))
  obtain ⟨bindings', reads', perm'⟩ := List.perm_comp_forall₂ perm.symm reads
  exact ⟨bindings', ⟨items', foundItems, reads'⟩, perm'.symm⟩

variable [Ord α] [Std.TransOrd α] [Std.LawfulEqOrd α]
variable {add : Std.ExtTreeMap α β → Json → Decoded (Std.ExtTreeMap α β)}
variable {readsAs : Json → α × β → Prop} {bindings : List (α × β)}
variable (loads : Wire.LoadsBindings add readsAs)
variable (under : EntriesUnder readsAs key members bindings)
include loads under

theorem exists_perm_iff {loaded : Std.ExtTreeMap α β} :
    (∃ entries others, members.lookup key = some (.array entries) ∧
      List.Forall₂ readsAs entries others ∧ loaded.toList.Perm others) ↔
      loaded.toList.Perm bindings := by
  obtain ⟨entries, found, reads⟩ := under
  rw [← loads.foldlM_eq_ok_iff_perm reads, loads.foldlM_eq_ok_iff]
  simp only [found, Option.some.injEq, Json.array.injEq, exists_and_left, exists_eq_left']

/-- Under a key, entries whose keys are distinct are read and loaded. -/
theorem exists_loaded (distinct : (bindings.map Prod.fst).Nodup) :
    ∃ entries loaded, readEntries key members = .ok entries ∧
      entries.foldlM add ∅ = Except.ok loaded := by
  obtain ⟨entries, found, reads⟩ := under
  obtain ⟨loaded, loadsAll⟩ := (loads.exists_foldlM_eq_ok_iff reads).mpr distinct
  exact ⟨entries, loaded, readEntries_eq_ok_iff.mpr found, loadsAll⟩

/-- Under a key, entries of which two have one key are read, but not loaded. -/
theorem exists_refused
    (refuses : RefusesKnown add readsAs key)
    (repeated : ¬(bindings.map Prod.fst).Nodup) :
    ∃ entries twice, readEntries key members = .ok entries ∧
      entries.foldlM add ∅ = Except.error (DecodeError.duplicateKey key twice) := by
  obtain ⟨entries, found, reads⟩ := under
  obtain ⟨twice, refused⟩ := loads.exists_foldlM_eq_error refuses reads repeated
  exact ⟨entries, twice, readEntries_eq_ok_iff.mpr found, refused⟩

end EntriesUnder

theorem integer_toInt_eq_iff
    {time time' : Int64} :
    Json.integer time.toInt = Json.integer time'.toInt ↔ time' = time := by
  have read (n : Int64) : (Json.integer n.toInt).readTime "State" = .ok n :=
    Json.readTime_eq_ok_iff.mpr rfl
  constructor
  · intro same
    have readSame := read time
    rw [same, read time'] at readSame
    exact Except.ok.inj readSame
  · rintro rfl
    rfl

/-- What can be read is loaded if some state has the bindings of all three lists. -/
theorem decodeMembers_eq_ok_iff_of_writtenIn
    (written : listing.WrittenIn members) :
    decodeMembers members = .ok state ↔
      state.accounts.toList.Perm listing.accounts ∧ state.choices.toList.Perm listing.choices ∧
        state.boundValues.toList.Perm listing.boundValues ∧ state.minTime = listing.minTime := by
  have within : ∀ key ∈ Json.Members.keys members, key ∈ documentKeys :=
    fun key => written.keys.mem_iff.mp
  rw [decodeMembers_eq_ok_iff, written.accounts.exists_perm_iff loadsBindings_addAccount,
    written.choices.exists_perm_iff loadsBindings_addChoice,
    written.boundValues.exists_perm_iff loadsBindings_addBinding, written.minTime,
    Option.some.injEq, integer_toInt_eq_iff]
  exact and_iff_right within

theorem holds_of_decodeMembers
    (written : listing.WrittenIn members)
    (decoded : decodeMembers members = .ok state) :
    state.Holds listing := by
  obtain ⟨accounts, choices, values, time⟩ :=
    (decodeMembers_eq_ok_iff_of_writtenIn written).mp decoded
  have exactly := ExtTreeMap.hasExactly_of_perm accounts
  refine ⟨exactly, ExtTreeMap.hasExactly_of_perm choices, ExtTreeMap.hasExactly_of_perm values,
    time, fun account amount listed => ?_, fun account absent => ?_⟩
  · rw [balance, Std.ExtTreeMap.getD_eq_getD_getElem?,
      (exactly.getElem?_eq_some_iff account amount).mpr listed, Option.getD_some]
  · cases found : state.accounts[account]? with
    | none => rw [balance, Std.ExtTreeMap.getD_eq_getD_getElem?, found, Option.getD_none]
    | some amount =>
        have listed := (exactly.getElem?_eq_some_iff account amount).mp found
        exact absurd (List.mem_map_of_mem listed) absent

/-- Listed in another order, the entries are read as the same state. -/
theorem decodeMembers_of_sameEntries
    (written : listing.WrittenIn members)
    (decoded : decodeMembers members = .ok state)
    (same : SameEntries members members') :
    decodeMembers members' = .ok state := by
  obtain ⟨accounts, choices, values, time⟩ :=
    (decodeMembers_eq_ok_iff_of_writtenIn written).mp decoded
  obtain ⟨accounts', underAccounts, permAccounts⟩ := written.accounts.of_sameItems same.accounts
  obtain ⟨choices', underChoices, permChoices⟩ := written.choices.of_sameItems same.choices
  obtain ⟨values', underValues, permValues⟩ := written.boundValues.of_sameItems same.boundValues
  have written' : Listing.WrittenIn members' ⟨accounts', choices', values', listing.minTime⟩ :=
    ⟨same.keys.symm.trans written.keys, underAccounts, underChoices, underValues,
      same.minTime ▸ written.minTime⟩
  exact (decodeMembers_eq_ok_iff_of_writtenIn written').mpr
    ⟨accounts.trans permAccounts, choices.trans permChoices, values.trans permValues, time⟩

theorem exists_decodeMembers_eq_ok_iff
    (written : listing.WrittenIn members) :
    (∃ state, decodeMembers members = .ok state) ↔ listing.Distinct := by
  simp only [decodeMembers_eq_ok_iff_of_writtenIn written]
  constructor
  · rintro ⟨state, accounts, choices, values, _⟩
    exact ⟨(accounts.map Prod.fst).nodup_iff.mp (ExtTreeMap.nodup_keys_toList _),
      (choices.map Prod.fst).nodup_iff.mp (ExtTreeMap.nodup_keys_toList _),
      (values.map Prod.fst).nodup_iff.mp (ExtTreeMap.nodup_keys_toList _)⟩
  · rintro ⟨distinctAccounts, distinctChoices, distinctValues⟩
    obtain ⟨accounts, sameAccounts⟩ := ExtTreeMap.exists_toList_perm distinctAccounts
    obtain ⟨choices, sameChoices⟩ := ExtTreeMap.exists_toList_perm distinctChoices
    obtain ⟨values, sameValues⟩ := ExtTreeMap.exists_toList_perm distinctValues
    exact ⟨⟨accounts, choices, values, listing.minTime⟩, sameAccounts, sameChoices, sameValues, rfl⟩

/-! ### Refused documents

The lists are loaded one after the other: a list that is refused is at fault if those in
front of it are loaded, and those behind it are not looked at. -/

theorem extraKey?_of_writtenIn (written : listing.WrittenIn members) :
    members.extraKey? documentKeys = none :=
  Json.Members.extraKey?_eq_none_iff.mpr fun _ => written.keys.mem_iff.mp

theorem decodeMembers_of_refused_accounts
    (written : listing.WrittenIn members)
    {entries : List Json}
    (read : readEntries "accounts" members = .ok entries)
    {reason : DecodeError}
    (refused : entries.foldlM addAccount ∅ = Except.error reason) :
    decodeMembers members = .error reason := by
  simp only [decodeMembers, extraKey?_of_writtenIn written, read, refused, Decoded.ok_bind,
    Decoded.error_bind]

theorem decodeMembers_of_refused_choices
    (written : listing.WrittenIn members)
    (distinctAccounts : (listing.accounts.map Prod.fst).Nodup)
    {entries : List Json}
    (read : readEntries "choices" members = .ok entries)
    {reason : DecodeError}
    (refused : entries.foldlM addChoice ∅ = Except.error reason) :
    decodeMembers members = .error reason := by
  obtain ⟨_, _, readAccounts, loadedAccounts⟩ :=
    written.accounts.exists_loaded loadsBindings_addAccount distinctAccounts
  simp only [decodeMembers, extraKey?_of_writtenIn written, readAccounts, loadedAccounts, read,
    refused, Decoded.ok_bind, Decoded.error_bind]

theorem decodeMembers_of_refused_boundValues
    (written : listing.WrittenIn members)
    (distinctAccounts : (listing.accounts.map Prod.fst).Nodup)
    (distinctChoices : (listing.choices.map Prod.fst).Nodup)
    {entries : List Json}
    (read : readEntries "boundValues" members = .ok entries)
    {reason : DecodeError}
    (refused : entries.foldlM addBinding ∅ = Except.error reason) :
    decodeMembers members = .error reason := by
  obtain ⟨_, _, readAccounts, loadedAccounts⟩ :=
    written.accounts.exists_loaded loadsBindings_addAccount distinctAccounts
  obtain ⟨_, _, readChoices, loadedChoices⟩ :=
    written.choices.exists_loaded loadsBindings_addChoice distinctChoices
  simp only [decodeMembers, extraKey?_of_writtenIn written, readAccounts, loadedAccounts,
    readChoices, loadedChoices, read, refused, Decoded.ok_bind, Decoded.error_bind]

/-- Of several lists in which a key comes twice the first is found at fault. -/
theorem exists_decodeMembers_eq_error
    (written : listing.WrittenIn members)
    (repeated : ¬listing.Distinct) :
    ∃ context twice, listing.repeated? = some context ∧
      decodeMembers members = .error (.duplicateKey context twice) := by
  simp only [Listing.repeated?]
  by_cases accounts : (listing.accounts.map Prod.fst).Nodup
  case neg =>
    obtain ⟨_, twice, read, refused⟩ :=
      written.accounts.exists_refused loadsBindings_addAccount refusesKnown_addAccount accounts
    exact ⟨"accounts", twice, if_pos accounts,
      decodeMembers_of_refused_accounts written read refused⟩
  rw [if_neg (not_not.mpr accounts)]
  by_cases choices : (listing.choices.map Prod.fst).Nodup
  case neg =>
    obtain ⟨_, twice, read, refused⟩ :=
      written.choices.exists_refused loadsBindings_addChoice refusesKnown_addChoice choices
    exact ⟨"choices", twice, if_pos choices,
      decodeMembers_of_refused_choices written accounts read refused⟩
  rw [if_neg (not_not.mpr choices)]
  have boundValues : ¬(listing.boundValues.map Prod.fst).Nodup := fun distinct =>
    repeated ⟨accounts, choices, distinct⟩
  obtain ⟨_, twice, read, refused⟩ :=
    written.boundValues.exists_refused loadsBindings_addBinding refusesKnown_addBinding boundValues
  exact ⟨"boundValues", twice, if_pos boundValues,
    decodeMembers_of_refused_boundValues written accounts choices read refused⟩

/-- An object is read as the state that holds what it lists, if there is one. -/
structure IsFaithful (members : Json.Members) (listing : Listing) : Prop where
  accepted : (∃ state, decode (.object members) = .ok state) ↔ listing.Distinct
  holds : ∀ state, decode (.object members) = .ok state → state.Holds listing
  /-- The order of the entries does not matter. -/
  reordered : ∀ state members', decode (.object members) = .ok state →
    SameEntries members members' → decode (.object members') = .ok state
  /-- It is refused for the first list in which a key comes twice. -/
  refused : ¬listing.Distinct → ∃ context twice, listing.repeated? = some context ∧
    decode (.object members) = .error (.duplicateKey context twice)

theorem isFaithful_of_writtenIn
    (written : listing.WrittenIn members) :
    IsFaithful members listing where
  accepted := exists_decodeMembers_eq_ok_iff written
  holds _ := holds_of_decodeMembers written
  reordered _ _ := decodeMembers_of_sameEntries written
  refused := exists_decodeMembers_eq_error written

/-- What `chosenTwice` lists. -/
def chosenTwiceListing : Listing where
  accounts := [(⟨.role "a", ⟨"", ""⟩⟩, 5)]
  choices := [(⟨"price", .role "a"⟩, 3), (⟨"price", .role "a"⟩, 4)]
  boundValues := [("x", 1), ("x", 2)]
  minTime := 7

/-- A document of a state in which a choice is made twice, the second time with the keys of
its name in another order, and a name is bound twice. -/
def chosenTwice : Json.Members :=
  let owner : Json := .object [("role_token", .string "a")]
  let native : Json := .object [("token_name", .string ""), ("currency_symbol", .string "")]
  let choice : Json.Members := [("choice_name", .string "price"), ("choice_owner", owner)]
  [("minTime", .number "7"),
    ("boundValues", .array [.array [.string "x", .number "1"], .array [.string "x", .number "2"]]),
    ("choices", .array [.array [.object choice, .number "3"],
      .array [.object choice.reverse, .number "4"]]),
    ("accounts", .array [.array [.array [owner, native], .number "5"]])]

theorem isFaithful_chosenTwice :
    chosenTwiceListing.WrittenIn chosenTwice ∧ IsFaithful chosenTwice chosenTwiceListing ∧
      decode (.object chosenTwice) =
        .error (.duplicateKey "choices" "object \x7bchoice_owner, choice_name\x7d") := by
  have written : chosenTwiceListing.WrittenIn chosenTwice :=
    { keys := by decide
      accounts := ⟨_, rfl, .cons ⟨_, _, rfl, rfl, rfl⟩ .nil⟩
      choices := ⟨_, rfl, .cons ⟨_, rfl, rfl⟩ (.cons ⟨_, rfl, rfl⟩ .nil)⟩
      boundValues := ⟨_, rfl, .cons rfl (.cons rfl .nil)⟩
      minTime := by rfl }
  exact ⟨written, isFaithful_of_writtenIn written, by rfl⟩

end State
end Covenant
