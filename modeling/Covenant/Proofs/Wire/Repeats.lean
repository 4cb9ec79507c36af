import Covenant.Proofs.Wire.Loading
import Covenant.Proofs.Wire.RoundTrip

/-!
# Which key is repeated

The document of a state that lists a key twice is refused, and the error shows a key.  For a
name the error shows the name itself.  For an account it shows that its key is a pair, and
for a choice the keys of the object that names it, so that in documents with keys in
declared order every repeated account is shown in the same way, and so is every repeated
choice.  Hence two such errors differ exactly if different names are repeated
(`State.duplicateKey_ne_iff`).
-/

namespace Covenant

namespace Json

/-- Every object in a document, however deep, lists its keys in one of the given orders. -/
inductive ListsKeysIn (orders : List (List String)) : Json → Prop
  | null : ListsKeysIn orders null
  | bool (value : Bool) : ListsKeysIn orders (bool value)
  | number (literal : String) : ListsKeysIn orders (number literal)
  | string (text : String) : ListsKeysIn orders (string text)
  | array {items : List Json} :
      (∀ item ∈ items, ListsKeysIn orders item) →
      ListsKeysIn orders (array items)
  | object {members : Members} :
      Members.keys members ∈ orders →
      (∀ member ∈ members, ListsKeysIn orders member.2) →
      ListsKeysIn orders (object members)

namespace ListsKeysIn

variable {orders : List (List String)}

theorem part
    {document part : Json}
    (ordered : ListsKeysIn orders document)
    (inside : part ∈ document.parts) :
    ListsKeysIn orders part := by
  cases ordered with
  | array items => exact items part inside
  | object _ values =>
      obtain ⟨member, listed, rfl⟩ := List.mem_map.mp inside
      exact values member listed
  | _ => simp [parts] at inside

theorem keys_mem
    {members : Members}
    (ordered : ListsKeysIn orders (Json.object members)) :
    Members.keys members ∈ orders := by
  cases ordered with
  | object keys _ => exact keys

end ListsKeysIn
end Json

namespace State

/-- The orders in which the keys of objects are declared that can stand in the document of a
state: those of the state itself, of parties, of assets and of choices. -/
def declaredOrders : List (List String) :=
  documentKeys :: (Wire.partyForms.map Wire.Form.keys ++ Wire.assetForms.map Wire.Form.keys ++
    Wire.choiceIdForms.map Wire.Form.keys)

/-- With its keys in declared order, every choice is described in the same way. -/
theorem describe_of_choice
    {document : Json}
    {choice : ChoiceId}
    (readChoice : ChoiceId.decode document = .ok choice)
    (ordered : document.ListsKeysIn declaredOrders) :
    document.describe = "object \x7bchoice_name, choice_owner\x7d" := by
  cases document with
  | object members =>
      obtain ⟨form, known, within, _⟩ := Wire.Family.decode_object_eq_ok_iff.mp readChoice
      obtain rfl := List.mem_singleton.mp (List.mem_of_find?_eq_some known)
      -- No other order has only keys that name a choice.
      have unique : ∀ keys ∈ declaredOrders,
          (∀ key ∈ keys, key ∈ ["choice_name", "choice_owner"]) →
            keys = ["choice_name", "choice_owner"] := by decide
      rw [Json.describe, unique _ ordered.keys_mem within]
      decide
  | _ => cases readChoice

/-- A key of an entry that is listed again. -/
inductive RepeatedKey where
  | account (account : Account)
  | choice (choice : ChoiceId)
  | name (text : String)
deriving DecidableEq

namespace RepeatedKey

/-- The key of the list in which a key is repeated. -/
def context : RepeatedKey → String
  | account _ => "accounts"
  | choice _ => "choices"
  | name _ => "boundValues"

/-- What the error says of a repeated key, if keys are in declared order. -/
def shown : RepeatedKey → String
  | account _ => "array of 2"
  | choice _ => "object \x7bchoice_name, choice_owner\x7d"
  | name text => text

/-- Only names are told apart. -/
theorem shown_ne_iff
    {repeated repeated' : RepeatedKey}
    (sameContext : repeated.context = repeated'.context) :
    repeated.shown ≠ repeated'.shown ↔
      repeated.context = "boundValues" ∧ repeated ≠ repeated' := by
  cases repeated <;> cases repeated' <;> simp [context, shown] at sameContext ⊢

end RepeatedKey

/-- The key at which loading stops: in the first of the three lists in which a key comes
twice, the first one that is listed again. -/
def Listing.repeatedKey? (listing : Listing) : Option RepeatedKey :=
  ((firstRepeated? [] (listing.accounts.map Prod.fst)).map .account).or <|
    ((firstRepeated? [] (listing.choices.map Prod.fst)).map .choice).or <|
      (firstRepeated? [] (listing.boundValues.map Prod.fst)).map .name

theorem firstRepeated?_nil_eq_none_iff
    {α : Type} [DecidableEq α]
    {items : List α} :
    firstRepeated? [] items = none ↔ items.Nodup := by
  simp [firstRepeated?_eq_none_iff]

variable {members members' : Json.Members} {listing listing' : Listing}

theorem Listing.repeatedKey?_eq_none_iff : listing.repeatedKey? = none ↔ listing.Distinct := by
  simp only [repeatedKey?, Option.or_eq_none_iff, Option.map_eq_none_iff,
    firstRepeated?_nil_eq_none_iff]
  exact ⟨fun ⟨accounts, choices, values⟩ => ⟨accounts, choices, values⟩,
    fun distinct => ⟨distinct.accounts, distinct.choices, distinct.boundValues⟩⟩

/-- Where the keys of a list are repeated, the entries are read, and refused for the one that
repeats a key first. -/
theorem EntriesUnder.exists_refused_of_firstRepeated
    {α β : Type} [Ord α] [Std.TransOrd α] [Std.LawfulEqOrd α] [DecidableEq α]
    {add : Std.ExtTreeMap α β → Json → Decoded (Std.ExtTreeMap α β)}
    {readsAs : Json → α × β → Prop}
    (loads : Wire.LoadsBindings add readsAs)
    {key : String}
    {bindings : List (α × β)}
    (under : EntriesUnder readsAs key members bindings)
    {twice : α}
    (first : firstRepeated? [] (bindings.map Prod.fst) = some twice) :
    ∃ entries entry binding loaded, readEntries key members = .ok entries ∧ entry ∈ entries ∧
      readsAs entry binding ∧ binding.1 = twice ∧ binding.1 ∈ loaded ∧
        ∀ reason, add loaded entry = Except.error reason →
          entries.foldlM add ∅ = Except.error reason := by
  obtain ⟨entries, found, reads⟩ := under
  have nothingLoaded : ∀ key, key ∈ ([] : List α) ↔ key ∈ (∅ : Std.ExtTreeMap α β) := by simp
  obtain ⟨entry, listed, binding, loaded, readsEntry, isKey, present, refuse⟩ :=
    loads.exists_refused_of_firstRepeated reads nothingLoaded first
  exact ⟨entries, entry, binding, loaded, readEntries_eq_ok_iff.mpr found, listed, readsEntry,
    isKey, present, refuse⟩

/-- The document of a state with keys in declared order is refused for the first key that is
repeated. -/
theorem decodeMembers_of_repeatedKey
    (written : listing.WrittenIn members)
    (ordered : (Json.object members).ListsKeysIn declaredOrders)
    {repeated : RepeatedKey}
    (first : listing.repeatedKey? = some repeated) :
    decodeMembers members = .error (.duplicateKey repeated.context repeated.shown) := by
  cases accounts : firstRepeated? [] (listing.accounts.map Prod.fst) with
  | some account =>
      obtain rfl : RepeatedKey.account account = repeated := by
        simpa [Listing.repeatedKey?, accounts] using first
      obtain ⟨entries, entry, binding, loaded, read, _, readsEntry, _, present, refuse⟩ :=
        written.accounts.exists_refused_of_firstRepeated loadsBindings_addAccount accounts
      exact decodeMembers_of_refused_accounts written read
        (refuse _ (addAccount_of_mem readsEntry present))
  | none =>
      have distinctAccounts := firstRepeated?_nil_eq_none_iff.mp accounts
      cases choices : firstRepeated? [] (listing.choices.map Prod.fst) with
      | some choice =>
          obtain rfl : RepeatedKey.choice choice = repeated := by
            simpa [Listing.repeatedKey?, accounts, choices] using first
          obtain ⟨entries, entry, binding, loaded, read, listed, ⟨document, rfl, readChoice⟩, _,
            present, refuse⟩ :=
            written.choices.exists_refused_of_firstRepeated loadsBindings_addChoice choices
          have refused := addChoice_of_mem readChoice present (.integer binding.2)
          have inside := Json.Members.mem_of_lookup_eq_some (readEntries_eq_ok_iff.mp read)
          have orderedEntry := (ordered.part (Json.mem_parts_object inside)).part listed
          rw [describe_of_choice readChoice (orderedEntry.part List.mem_cons_self)] at refused
          exact decodeMembers_of_refused_choices written distinctAccounts read (refuse _ refused)
      | none =>
          have distinctChoices := firstRepeated?_nil_eq_none_iff.mp choices
          obtain ⟨name, isFirst, rfl⟩ :
              ∃ name, firstRepeated? [] (listing.boundValues.map Prod.fst) = some name ∧
                RepeatedKey.name name = repeated := by
            simpa [Listing.repeatedKey?, accounts, choices] using first
          obtain ⟨entries, entry, binding, loaded, read, _, rfl, rfl, present, refuse⟩ :=
            written.boundValues.exists_refused_of_firstRepeated loadsBindings_addBinding isFirst
          exact decodeMembers_of_refused_boundValues written distinctAccounts distinctChoices read
            (refuse _ (addBinding_of_mem present _))

theorem exists_repeatedKey
    (written : listing.WrittenIn members)
    (ordered : (Json.object members).ListsKeysIn declaredOrders)
    {context key : String}
    (refused : decode (.object members) = .error (.duplicateKey context key)) :
    ∃ repeated, listing.repeatedKey? = some repeated ∧ repeated.context = context ∧
      repeated.shown = key := by
  cases first : listing.repeatedKey? with
  | none =>
      have distinct := Listing.repeatedKey?_eq_none_iff.mp first
      obtain ⟨state, decoded⟩ := (exists_decodeMembers_eq_ok_iff written).mpr distinct
      rw [decode, decoded] at refused
      cases refused
  | some repeated =>
      rw [decode, decodeMembers_of_repeatedKey written ordered first] at refused
      obtain ⟨sameContext, sameKey⟩ := DecodeError.duplicateKey.inj (Except.error.inj refused)
      exact ⟨repeated, rfl, sameContext, sameKey⟩

/-- Two documents of states, both well shaped and with keys in declared order, are refused
because a key is repeated in the same of the three lists.  The errors then differ exactly if
the repeated keys are different names; repeated accounts all give one error, and so do
repeated choices. -/
theorem duplicateKey_ne_iff
    (written : listing.WrittenIn members)
    (written' : listing'.WrittenIn members')
    (ordered : (Json.object members).ListsKeysIn declaredOrders)
    (ordered' : (Json.object members').ListsKeysIn declaredOrders)
    {context key key' : String}
    (refused : decode (.object members) = .error (.duplicateKey context key))
    (refused' : decode (.object members') = .error (.duplicateKey context key')) :
    ∃ repeated repeated', listing.repeatedKey? = some repeated ∧
      listing'.repeatedKey? = some repeated' ∧
      repeated.context = context ∧ repeated'.context = context ∧
      repeated.shown = key ∧ repeated'.shown = key' ∧
      (key ≠ key' ↔ context = "boundValues" ∧ repeated ≠ repeated') := by
  obtain ⟨repeated, first, rfl, rfl⟩ := exists_repeatedKey written ordered refused
  obtain ⟨repeated', first', sameContext, rfl⟩ := exists_repeatedKey written' ordered' refused'
  exact ⟨repeated, repeated', first, first', rfl, sameContext, rfl, rfl,
    RepeatedKey.shown_ne_iff sameContext.symm⟩

/-! ## Listings in declared order

Every listing is written in a document, and with the same keys in the same order as the
states that a document is written for. -/

/-- The members of the document that lists the given entries. -/
def Listing.document (listing : Listing) : Json.Members :=
  [("accounts", .array (listing.accounts.map fun entry => encodeBalance entry.1 entry.2)),
    ("choices", .array (listing.choices.map fun entry => encodeChoice entry.1 entry.2)),
    ("boundValues", .array (listing.boundValues.map fun entry => encodeBinding entry.1 entry.2)),
    ("minTime", .integer listing.minTime.toInt)]

theorem writtenIn_document (listing : Listing) : listing.WrittenIn listing.document where
  keys := .refl _
  accounts :=
    ⟨_, rfl, forall₂_map_self fun entry _ => readsBalance_encodeBalance entry.1 entry.2⟩
  choices :=
    ⟨_, rfl, forall₂_map_self fun entry _ => readsChoice_encodeChoice entry.1 entry.2⟩
  boundValues :=
    ⟨_, rfl, forall₂_map_self fun entry _ => readsBinding_encodeBinding entry.1 entry.2⟩
  minTime := rfl

theorem listsKeysIn_party (party : Party) : party.encode.ListsKeysIn declaredOrders := by
  cases party with
  | role name =>
      have isOrder : ["role_token"] ∈ declaredOrders := by decide
      exact .object isOrder (List.forall_mem_singleton.mpr (.string name))
  | address text =>
      have isOrder : ["address"] ∈ declaredOrders := by decide
      exact .object isOrder (List.forall_mem_singleton.mpr (.string text))

theorem listsKeysIn_asset (asset : Asset) : asset.encode.ListsKeysIn declaredOrders := by
  have isOrder : ["currency_symbol", "token_name"] ∈ declaredOrders := by decide
  exact .object isOrder (List.forall_mem_cons.mpr
    ⟨.string _, List.forall_mem_singleton.mpr (.string _)⟩)

theorem listsKeysIn_choice (choice : ChoiceId) : choice.encode.ListsKeysIn declaredOrders := by
  have isOrder : ["choice_name", "choice_owner"] ∈ declaredOrders := by decide
  exact .object isOrder (List.forall_mem_cons.mpr
    ⟨.string _, List.forall_mem_singleton.mpr (listsKeysIn_party choice.owner)⟩)

theorem listsKeysIn_pair
    {first second : Json}
    (orderedFirst : first.ListsKeysIn declaredOrders)
    (orderedSecond : second.ListsKeysIn declaredOrders) :
    (Json.array [first, second]).ListsKeysIn declaredOrders :=
  .array (List.forall_mem_cons.mpr ⟨orderedFirst, List.forall_mem_singleton.mpr orderedSecond⟩)

theorem listsKeysIn_document (listing : Listing) :
    (Json.object listing.document).ListsKeysIn declaredOrders := by
  refine .object List.mem_cons_self ?_
  simp only [Listing.document, List.forall_mem_cons]
  refine ⟨.array ?_, .array ?_, .array ?_, .number _, List.forall_mem_nil _⟩
  · refine List.forall_mem_map.mpr fun entry _ => ?_
    exact listsKeysIn_pair
      (listsKeysIn_pair (listsKeysIn_party _) (listsKeysIn_asset _)) (.number _)
  · exact List.forall_mem_map.mpr fun entry _ => listsKeysIn_pair (listsKeysIn_choice _) (.number _)
  · exact List.forall_mem_map.mpr fun entry _ => listsKeysIn_pair (.string _) (.number _)

/-- A listed key that is repeated is an error of the document that is written. -/
theorem decode_document_of_repeatedKey
    {repeated : RepeatedKey}
    (first : listing.repeatedKey? = some repeated) :
    decode (.object listing.document) =
      .error (.duplicateKey repeated.context repeated.shown) :=
  decodeMembers_of_repeatedKey (writtenIn_document listing) (listsKeysIn_document listing) first

/-- A name is bound twice. -/
def boundTwice (name : String) : Listing where
  accounts := [(⟨.role "a", ⟨"", ""⟩⟩, 5)]
  choices := [(⟨"price", .role "a"⟩, 3)]
  boundValues := [(name, 1), (name, 2)]
  minTime := 0

theorem duplicateKey_ne_iff_boundTwice :
    decode (.object (boundTwice "x").document) = .error (.duplicateKey "boundValues" "x") ∧
    decode (.object (boundTwice "y").document) = .error (.duplicateKey "boundValues" "y") ∧
    ∃ repeated repeated', (boundTwice "x").repeatedKey? = some repeated ∧
      (boundTwice "y").repeatedKey? = some repeated' ∧
      ("x" ≠ "y" ↔ "boundValues" = "boundValues" ∧ repeated ≠ repeated') := by
  have first : (boundTwice "x").repeatedKey? = some (.name "x") := by decide
  have first' : (boundTwice "y").repeatedKey? = some (.name "y") := by decide
  have refused := decode_document_of_repeatedKey first
  have refused' := decode_document_of_repeatedKey first'
  obtain ⟨repeated, repeated', isFirst, isFirst', _, _, _, _, differ⟩ :=
    duplicateKey_ne_iff (writtenIn_document _) (writtenIn_document _) (listsKeysIn_document _)
      (listsKeysIn_document _) refused refused'
  exact ⟨refused, refused', repeated, repeated', isFirst, isFirst', differ⟩

/-- An account of a party is held twice. -/
def heldTwice (owner : String) : Listing where
  accounts := [(⟨.role owner, ⟨"", ""⟩⟩, 5), (⟨.role owner, ⟨"", ""⟩⟩, 6)]
  choices := []
  boundValues := []
  minTime := 0

/-- The errors of two documents may be the same although different accounts are repeated. -/
theorem not_tellsAccountsApart :
    ¬∀ (listing listing' : Listing) (members members' : Json.Members)
      (context key key' : String) (repeated repeated' : RepeatedKey),
      listing.WrittenIn members → listing'.WrittenIn members' →
      (Json.object members).ListsKeysIn declaredOrders →
      (Json.object members').ListsKeysIn declaredOrders →
      decode (.object members) = .error (.duplicateKey context key) →
      decode (.object members') = .error (.duplicateKey context key') →
      listing.repeatedKey? = some repeated → listing'.repeatedKey? = some repeated' →
      repeated ≠ repeated' → key ≠ key' := by
  intro tellsApart
  have first (owner : String) :
      (heldTwice owner).repeatedKey? = some (.account ⟨.role owner, ⟨"", ""⟩⟩) := by
    simp [Listing.repeatedKey?, heldTwice, firstRepeated?]
  have refused (owner : String) : decode (.object (heldTwice owner).document) =
      .error (.duplicateKey "accounts" "array of 2") :=
    decode_document_of_repeatedKey (first owner)
  exact tellsApart (heldTwice "a") (heldTwice "b") _ _ _ _ _ _ _ (writtenIn_document _)
    (writtenIn_document _) (listsKeysIn_document _) (listsKeysIn_document _) (refused "a")
    (refused "b") (first "a") (first "b") (by decide) rfl

end State
end Covenant
