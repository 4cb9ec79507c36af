import Covenant.Proofs.Wire.Replacement

/-!
# Every kind is read compositionally

In the document of a state the places of nodes are the owners and the assets of accounts
and the choices.  What is refused there is refused as a whole for the same reason; what is
read there need not be read as a whole, since a new key may be that of another entry.  With
the laws of nodes this gives one law for all kinds (`Canonical.Kind.decode_put`).
-/

namespace Covenant
namespace Wire

/-- An entry can be replaced by one that is refused whatever is loaded before it, and then
loading the entries is refused for the same reason. -/
theorem LoadsBindings.foldlM_set_eq_error
    {α β : Type} [Ord α] [Std.TransOrd α] [Std.LawfulEqOrd α]
    {add : Std.ExtTreeMap α β → Json → Decoded (Std.ExtTreeMap α β)}
    {readsAs : Json → α × β → Prop}
    (loads : LoadsBindings add readsAs)
    {entries : List Json}
    {bindings : List (α × β)}
    (reads : List.Forall₂ readsAs entries bindings)
    {loaded : Std.ExtTreeMap α β}
    (all : loaded.toList.Perm bindings)
    {index : Nat}
    {entry : Json}
    (found : entries[index]? = some entry) :
    (∃ binding, readsAs entry binding) ∧
      ∀ entry' reason, (∀ map, add map entry' = Except.error reason) →
        (entries.set index entry').foldlM add ∅ = Except.error reason := by
  obtain ⟨before, behind, rfl, _, replaced⟩ := Json.exists_eq_append_cons found
  obtain ⟨_, binding, _, _, _, readsEntry, _⟩ := Content.exists_of_forall₂_append_cons reads
  refine ⟨⟨binding, readsEntry⟩, fun entry' reason refused => ?_⟩
  have loadsAll := loads.foldlM_eq_ok_iff.mpr ⟨bindings, reads, all⟩
  rw [List.foldlM_append, Decoded.bind_eq_ok_iff] at loadsAll
  obtain ⟨between, loadsBefore, _⟩ := loadsAll
  rw [replaced, List.foldlM_append, loadsBefore]
  change (add between entry' >>= fun next => behind.foldlM add next) = .error reason
  rw [refused]
  rfl

end Wire

namespace State

open Wire (Family)

/-- Where an entry has its owner, an account is refused for what the owner is refused. -/
theorem addAccount_put_owner
    {entry : Json}
    {binding : Account × Nat}
    (reads : ReadsBalance entry binding)
    {other : Json}
    {reason : DecodeError}
    (refused : Family.party.decode other = .error reason)
    (accounts : Std.ExtTreeMap Account Nat) :
    addAccount accounts (entry.put [.index 0, .index 0] other) = .error reason := by
  obtain ⟨owner, asset, rfl, _, _⟩ := reads
  change (Party.decode other >>= _) = _
  rw [Party.decode, refused]
  rfl

theorem addAccount_put_asset
    {entry : Json}
    {binding : Account × Nat}
    (reads : ReadsBalance entry binding)
    {other : Json}
    {reason : DecodeError}
    (refused : Family.asset.decode other = .error reason)
    (accounts : Std.ExtTreeMap Account Nat) :
    addAccount accounts (entry.put [.index 0, .index 1] other) = .error reason := by
  obtain ⟨owner, asset, rfl, readOwner, _⟩ := reads
  change (Party.decode owner >>= fun _ => Asset.decode other >>= _) = _
  rw [readOwner, Asset.decode, refused]
  rfl

theorem addChoice_put_choice
    {entry : Json}
    {binding : ChoiceId × Int}
    (reads : ReadsChoice entry binding)
    {other : Json}
    {reason : DecodeError}
    (refused : Family.choiceId.decode other = .error reason)
    (choices : Std.ExtTreeMap ChoiceId Int) :
    addChoice choices (entry.put [.index 0] other) = .error reason := by
  obtain ⟨choice, rfl, _⟩ := reads
  change (ChoiceId.decode other >>= _) = _
  rw [ChoiceId.decode, refused]
  rfl

theorem readEntries_set_self
    (key : String)
    (entries : List Json)
    (members : Json.Members) :
    readEntries key (Json.Members.set key (.array entries) members) = .ok entries :=
  readEntries_eq_ok_iff.mpr (Json.Members.lookup_set_self ..)

theorem readEntries_set_of_ne
    {key other : String}
    (different : other ≠ key)
    (value : Json)
    (members : Json.Members) :
    readEntries other (Json.Members.set key value members) = readEntries other members := by
  rw [readEntries, readEntries, Json.Members.read, Json.Members.read,
    Json.Members.lookup_set_of_ne different]

theorem read_set_self
    (variant key : String)
    (value : Json)
    (members : Json.Members) :
    Json.Members.read variant key (Json.Members.set key value members) = .ok value :=
  Json.Members.read_eq_ok_iff.mpr (Json.Members.lookup_set_self ..)

theorem read_set_of_ne
    {key other : String}
    (different : other ≠ key)
    (variant : String)
    (value : Json)
    (members : Json.Members) :
    Json.Members.read variant other (Json.Members.set key value members) =
      Json.Members.read variant other members := by
  rw [Json.Members.read, Json.Members.read, Json.Members.lookup_set_of_ne different]

/-- Another value for a key that is there adds no extra key. -/
theorem extraKey?_set_eq_none
    {members : Json.Members}
    (noExtra : Json.Members.extraKey? documentKeys members = none)
    {key : String}
    (isKey : key ∈ documentKeys)
    (value : Json) :
    Json.Members.extraKey? documentKeys (Json.Members.set key value members) = none := by
  refine Json.Members.extraKey?_eq_none_iff.mpr fun other listed => ?_
  obtain ⟨member, isMember, rfl⟩ := List.mem_map.mp listed
  rcases Json.Members.mem_of_mem_set isMember with rfl | isOld
  · exact isKey
  · exact Json.Members.extraKey?_eq_none_iff.mp noExtra _ (List.mem_map_of_mem isOld)

/-- Reading the members of a state again with another value for one of the keys reads just
that value anew. -/
structure Rereads (members : Json.Members) (state : State) : Prop where
  accounts : ∀ entries : List Json,
    decodeMembers (Json.Members.set "accounts" (.array entries) members) =
      (entries.foldlM addAccount ∅).map fun accounts => { state with accounts }
  choices : ∀ entries : List Json,
    decodeMembers (Json.Members.set "choices" (.array entries) members) =
      (entries.foldlM addChoice ∅).map fun choices => { state with choices }
  boundValues : ∀ entries : List Json,
    decodeMembers (Json.Members.set "boundValues" (.array entries) members) =
      (entries.foldlM addBinding ∅).map fun boundValues => { state with boundValues }
  minTime : ∀ time : Json,
    decodeMembers (Json.Members.set "minTime" time members) =
      (time.readTime "State").map fun minTime => { state with minTime }

theorem rereads_of_decodeMembers
    {members : Json.Members}
    {state : State}
    (decoded : decodeMembers members = .ok state) :
    Rereads members state := by
  obtain ⟨accounts, choices, boundValues, reads⟩ := exists_readsStepwise decoded
  have noExtra {key : String} (isKey : key ∈ documentKeys) (value : Json) :=
    extraKey?_set_eq_none reads.noExtra isKey value
  constructor
  · intro entries
    simp (disch := decide) only [decodeMembers, noExtra, readEntries_set_self,
      readEntries_set_of_ne, read_set_of_ne, reads.readChoices, reads.loadsChoices,
      reads.readValues, reads.loadsValues, reads.readTime, reads.fitsTime, Decoded.ok_bind]
    cases entries.foldlM addAccount ∅ <;> rfl
  · intro entries
    simp (disch := decide) only [decodeMembers, noExtra, readEntries_set_self,
      readEntries_set_of_ne, read_set_of_ne, reads.readAccounts, reads.loadsAccounts,
      reads.readValues, reads.loadsValues, reads.readTime, reads.fitsTime, Decoded.ok_bind]
    cases entries.foldlM addChoice ∅ <;> rfl
  · intro entries
    simp (disch := decide) only [decodeMembers, noExtra, readEntries_set_self,
      readEntries_set_of_ne, read_set_of_ne, reads.readAccounts, reads.loadsAccounts,
      reads.readChoices, reads.loadsChoices, reads.readTime, reads.fitsTime, Decoded.ok_bind]
    cases entries.foldlM addBinding ∅ <;> rfl
  · intro time
    simp (disch := decide) only [decodeMembers, noExtra, readEntries_set_of_ne, read_set_self,
      reads.readAccounts, reads.loadsAccounts, reads.readChoices, reads.loadsChoices,
      reads.readValues, reads.loadsValues, Decoded.ok_bind]
    cases time.readTime "State" <;> rfl

/-- If the document of a state is refused whenever the entries under a key are, then what
is refused in one of those entries, whatever is loaded before it, is refused in the
document of the state. -/
theorem decode_put_entry
    {α β : Type} [Ord α] [Std.TransOrd α] [Std.LawfulEqOrd α]
    {add : Std.ExtTreeMap α β → Json → Decoded (Std.ExtTreeMap α β)}
    {readsAs : Json → α × β → Prop}
    (loads : Wire.LoadsBindings add readsAs)
    {members : Json.Members}
    {key : String}
    {entries : List Json}
    {bindings : List (α × β)}
    (foundEntries : members.lookup key = some (.array entries))
    (reads : List.Forall₂ readsAs entries bindings)
    {loaded : Std.ExtTreeMap α β}
    (all : loaded.toList.Perm bindings)
    (refuseAll : ∀ entries' reason, entries'.foldlM add ∅ = Except.error reason →
      decodeMembers (Json.Members.set key (.array entries') members) = .error reason)
    {index : Nat}
    {path : Json.Path}
    {part : Json}
    (found : (Json.object members).part? (.key key :: .index index :: path) = some part) :
    ∃ entry binding, readsAs entry binding ∧ entry.part? path = some part ∧
      ∀ other reason, (∀ map, add map (entry.put path other) = Except.error reason) →
        decode ((Json.object members).put (.key key :: .index index :: path) other) =
          .error reason := by
  rw [Json.part?_key foundEntries] at found
  obtain ⟨entry, foundEntry, foundPart⟩ := Option.bind_eq_some_iff.mp found
  obtain ⟨⟨binding, readsEntry⟩, refuse⟩ := loads.foldlM_set_eq_error reads all foundEntry
  refine ⟨entry, binding, readsEntry, foundPart, fun other reason refused => ?_⟩
  rw [Json.put_key foundEntries, Json.put_index foundEntry]
  exact refuseAll _ _ (refuse _ _ refused)

theorem decode_put_accounts
    {document part : Json}
    {state : State}
    (decoded : decode document = .ok state)
    {index : Nat}
    {path : Json.Path}
    (found : document.part? (.key "accounts" :: .index index :: path) = some part) :
    ∃ entry binding, ReadsBalance entry binding ∧ entry.part? path = some part ∧
      ∀ other reason,
        (∀ accounts, addAccount accounts (entry.put path other) = .error reason) →
        decode (document.put (.key "accounts" :: .index index :: path) other) = .error reason := by
  obtain ⟨members, rfl, decoded⟩ := decode_eq_ok_iff.mp decoded
  obtain ⟨_, ⟨_, _, foundEntries, reads, all⟩, _⟩ := decodeMembers_eq_ok_iff.mp decoded
  exact decode_put_entry loadsBindings_addAccount foundEntries reads all
    (fun _ _ refused => by rw [(rereads_of_decodeMembers decoded).accounts, refused]; rfl) found

theorem decode_put_choices
    {document part : Json}
    {state : State}
    (decoded : decode document = .ok state)
    {index : Nat}
    {path : Json.Path}
    (found : document.part? (.key "choices" :: .index index :: path) = some part) :
    ∃ entry binding, ReadsChoice entry binding ∧ entry.part? path = some part ∧
      ∀ other reason,
        (∀ choices, addChoice choices (entry.put path other) = .error reason) →
        decode (document.put (.key "choices" :: .index index :: path) other) = .error reason := by
  obtain ⟨members, rfl, decoded⟩ := decode_eq_ok_iff.mp decoded
  obtain ⟨_, _, ⟨_, _, foundEntries, reads, all⟩, _⟩ := decodeMembers_eq_ok_iff.mp decoded
  exact decode_put_entry loadsBindings_addChoice foundEntries reads all
    (fun _ _ refused => by rw [(rereads_of_decodeMembers decoded).choices, refused]; rfl) found

/-- The document of a node can stand at a place of a document: it is read there, and what
is refused as a node of its family is refused as a state for the same reason. -/
def Demands (document : Json) (place : Json.Path) (family : Family) : Prop :=
  ∀ part, document.part? place = some part →
    (∃ node, family.decode part = .ok node) ∧
    ∀ other reason, family.decode other = .error reason →
      decode (document.put place other) = .error reason

variable {document : Json} {state : State}

theorem demands_owner
    (decoded : decode document = .ok state)
    (index : Nat) :
    Demands document [.key "accounts", .index index, .index 0, .index 0] .party := by
  intro part found
  obtain ⟨entry, binding, reads, foundPart, refuse⟩ := decode_put_accounts decoded found
  have isOwner : Family.party.decode part = .ok binding.1.owner := by
    obtain ⟨owner, asset, rfl, readOwner, _⟩ := reads
    obtain rfl : owner = part := Option.some.inj foundPart
    exact readOwner
  exact ⟨⟨_, isOwner⟩, fun other reason refused =>
    refuse other reason (addAccount_put_owner reads refused)⟩

theorem demands_asset
    (decoded : decode document = .ok state)
    (index : Nat) :
    Demands document [.key "accounts", .index index, .index 0, .index 1] .asset := by
  intro part found
  obtain ⟨entry, binding, reads, foundPart, refuse⟩ := decode_put_accounts decoded found
  have isAsset : Family.asset.decode part = .ok binding.1.asset := by
    obtain ⟨owner, asset, rfl, _, readAsset⟩ := reads
    obtain rfl : asset = part := Option.some.inj foundPart
    exact readAsset
  exact ⟨⟨_, isAsset⟩, fun other reason refused =>
    refuse other reason (addAccount_put_asset reads refused)⟩

theorem demands_choice
    (decoded : decode document = .ok state)
    (index : Nat) :
    Demands document [.key "choices", .index index, .index 0] .choiceId := by
  intro part found
  obtain ⟨entry, binding, reads, foundPart, refuse⟩ := decode_put_choices decoded found
  have isChoice : Family.choiceId.decode part = .ok binding.1 := by
    obtain ⟨choice, rfl, readChoice⟩ := reads
    obtain rfl : choice = part := Option.some.inj foundPart
    exact readChoice
  exact ⟨⟨_, isChoice⟩, fun other reason refused =>
    refuse other reason (addChoice_put_choice reads refused)⟩

/-- Where a node is demanded, all nodes inside are. -/
theorem Demands.inside
    {place : Json.Path}
    {family inner : Family}
    (demands : Demands document place family)
    {part : Json}
    (found : document.part? place = some part)
    {path : Json.Path}
    (reaches : Wire.Content.Reaches inner (.node family) part path) :
    ∃ inside old, document.part? (place ++ path) = some inside ∧
      inner.decode inside = .ok old ∧
      ∀ other reason, inner.decode other = .error reason →
        decode (document.put (place ++ path) other) = .error reason := by
  obtain ⟨⟨node, decodedPart⟩, refuse⟩ := demands part found
  obtain ⟨inside, old, foundInside, readInside, hole, _, _, readOther⟩ :=
    Family.exists_hole_of_reaches reaches decodedPart
  refine ⟨inside, old, ?_, readInside, fun other reason refused => ?_⟩
  · rw [Json.part?_append, found, Option.bind_some, foundInside]
  · rw [Json.put_append found]
    apply refuse
    rw [readOther, refused]
    rfl

/-- Where a path leads to the document of a node in that of a state, a document that is
refused as such a node is refused there, and for the same reason. -/
theorem exists_of_reaches
    {inner : Family}
    {path : Json.Path}
    (reaches : Reaches inner document path)
    (decoded : decode document = .ok state) :
    ∃ inside old, document.part? path = some inside ∧ inner.decode inside = .ok old ∧
      ∀ other reason, inner.decode other = .error reason →
        decode (document.put path other) = .error reason := by
  cases reaches with
  | owner found reaches => exact (demands_owner decoded _).inside found reaches
  | asset found reaches => exact (demands_asset decoded _).inside found reaches
  | choice found reaches => exact (demands_choice decoded _).inside found reaches

end State

namespace Canonical.Kind

/-- In a document that is read as a value, the document of a node at any place can be
replaced by any other one.  If that one is refused as a node of the same family, the whole
is refused for the same reason.  If it is read as a node, the whole is read as the value
with the new node in the place of the old one, unless it is the document of a state. -/
theorem decode_put
    (kind : Kind)
    {inner : Wire.Family}
    {document : Json}
    {path : Json.Path}
    {value : kind.Carrier}
    (decoded : decode document = .ok value)
    (reaches : kind.Reaches inner document path)
    (other : Json) :
    ∃ part old, document.part? path = some part ∧ inner.decode part = .ok old ∧
      (∀ reason, inner.decode other = .error reason →
        (decode (document.put path other) : Decoded kind.Carrier) = .error reason) ∧
      (∀ new, inner.decode other = .ok new → kind ≠ .state →
        ∃ value', decode (document.put path other) = .ok value' ∧
          kind.Replaces path old new value value' ∧
          (encode value').part? path = some (inner.encode new)) := by
  cases kind with
  | node family =>
      rw [decode_node] at decoded
      obtain ⟨part, old, found, readPart, hole, rfl, rfl, readOther⟩ :=
        Wire.Family.exists_hole_of_reaches reaches decoded
      refine ⟨part, old, found, readPart, fun reason refused => ?_, fun new read _ => ?_⟩
      · rw [decode_node, readOther, refused]
        rfl
      · refine ⟨hole.fill new, ?_, .node hole rfl, ?_⟩
        · rw [decode_node, readOther, read]
          rfl
        · have asNode := encode_node family (hole.fill new)
          exact asNode ▸ hole.part?_encode_fill new
  | state =>
      obtain ⟨part, old, found, readPart, refuse⟩ := State.exists_of_reaches reaches decoded
      exact ⟨part, old, found, readPart, refuse other, fun _ _ isNode => absurd rfl isNode⟩

/-- The document of a contract that awaits a notice before a deadline. -/
def awaitedNotice : Json :=
  .object [("when", .array [.object [
      ("case", .object [("notify_if",
        .object [("value", .number "3"), ("lt", .string "time_interval_end")])]),
      ("then", .string "close")]]),
    ("timeout", .number "9"), ("timeout_continuation", .string "close")]

/-- The place of the right operand of the comparison in `awaitedNotice`. -/
def noticeLimit : Json.Path :=
  [.key "when", .index 0, .key "case", .key "notify_if", .key "lt"]

/-- The contract of `awaitedNotice`, with a limit to fill in. -/
def noticeBelow (limit : Value) : (node .contract).Carrier :=
  Contract.await [⟨.notify (.compare .less (.constant 3) limit), .close⟩] 9 .close

theorem reaches_noticeLimit : (node .contract).Reaches .value awaitedNotice noticeLimit := by
  change Wire.Content.Reaches .value (.node .contract) awaitedNotice noticeLimit
  refine .field ⟨"when", .nodes .case⟩ rfl (by decide) rfl ?_
  refine .item rfl (.field ⟨"case", .node .action⟩ rfl (by decide) rfl ?_)
  refine .field ⟨"notify_if", .node .observation⟩ rfl (by decide) rfl ?_
  exact .field ⟨"lt", .node .value⟩ rfl (by decide) rfl (.here _)

theorem decode_put_noticeLimit :
    (decode awaitedNotice : Decoded (node .contract).Carrier) =
        .ok (noticeBelow .intervalEnd) ∧
      (node .contract).Reaches .value awaitedNotice noticeLimit ∧
      (decode (awaitedNotice.put noticeLimit (.string "soon")) :
        Decoded (node .contract).Carrier) = .error (.unknown "value" (.string "soon")) ∧
      ∃ value', decode (awaitedNotice.put noticeLimit (.number "7")) = .ok value' ∧
        @Replaces .value noticeLimit .intervalEnd (.constant 7) (node .contract)
          (noticeBelow .intervalEnd) value' ∧
        (encode value').part? noticeLimit = some (.number "7") := by
  have decoded : (decode awaitedNotice : Decoded (node .contract).Carrier) =
      .ok (noticeBelow .intervalEnd) := by rfl
  have reaches := reaches_noticeLimit
  obtain ⟨_, _, _, _, refuse, _⟩ := decode_put _ decoded reaches (.string "soon")
  obtain ⟨part, old, found, readPart, _, accept⟩ := decode_put _ decoded reaches (.number "7")
  obtain rfl : .string "time_interval_end" = part := Option.some.inj found
  obtain rfl : Value.intervalEnd = old := Except.ok.inj readPart
  exact ⟨decoded, reaches, refuse _ (by rfl), accept (.constant 7) (by rfl) (by simp)⟩

end Canonical.Kind
end Covenant
