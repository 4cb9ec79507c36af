import Covenant.Proofs.Wire.Loading
import Covenant.Proofs.Wire.Objects

/-!
# Numbers inside documents

Every number in a document that is read stands for an integer, and with any other number in
its place the document is judged by that one number: it is refused if the number is not
written as an integer or does not fit the place, and the error quotes the number.  At most
places it quotes just the text of the number; where a balance is below zero, it quotes the
words by which documents are described (`Canonical.Kind.takesNumbers_put`).
-/

namespace Covenant
namespace Wire

/-- How a place takes numbers: any text that is no integer is refused, and so are the
integers that do not fit.  Both errors show the text. -/
structure TakesNumbers
    {α : Type}
    (read : String → Decoded α)
    (fits : Int → Prop)
    (context : String)
    (shown : String → String) :
    Prop where
  invalid : ∀ literal, Decimal.toInt? literal = none →
    read literal = .error (.invalidInteger literal)
  fitting : ∀ n, fits n → ∃ value, read (Decimal.ofInt n) = .ok value
  outside : ∀ n, ¬fits n →
    read (Decimal.ofInt n) = .error (.outOfRange context (shown (Decimal.ofInt n)))

/-- Every error of a place quotes the text of the number that was found there. -/
def QuotesNumbers {α : Type} (read : String → Decoded α) : Prop :=
  ∀ literal reason, read literal = .error reason →
    reason = .invalidInteger literal ∨ ∃ context, reason = .outOfRange context literal

namespace TakesNumbers

variable {α β : Type} {read : String → Decoded α} {fits : Int → Prop} {context : String}
variable {shown : String → String}

/-- Where the text is shown as it is, the errors quote it. -/
theorem quotesNumbers
    (takes : TakesNumbers read fits context id) :
    QuotesNumbers read := by
  intro literal reason refused
  cases written : Decimal.toInt? literal with
  | none =>
      rw [takes.invalid literal written] at refused
      exact .inl (Except.error.inj refused).symm
  | some n =>
      obtain rfl := Decimal.toInt?_eq_some_iff.mp written
      by_cases isFitting : fits n
      · obtain ⟨value, accepted⟩ := takes.fitting n isFitting
        rw [accepted] at refused
        cases refused
      · rw [takes.outside n isFitting] at refused
        exact .inr ⟨context, (Except.error.inj refused).symm⟩

/-- A document takes numbers as the place does if it is read where the place is, and fails
for the same reason where the place fails. -/
theorem follow
    (takes : TakesNumbers read fits context shown)
    {whole : String → Decoded β}
    (accepts : ∀ literal value, read literal = .ok value → ∃ result, whole literal = .ok result)
    (refuses : ∀ literal reason, read literal = .error reason →
      whole literal = .error reason) :
    TakesNumbers whole fits context shown where
  invalid literal written := refuses _ _ (takes.invalid literal written)
  fitting n isFitting := by
    obtain ⟨value, accepted⟩ := takes.fitting n isFitting
    exact accepts _ value accepted
  outside n notFitting := refuses _ _ (takes.outside n notFitting)

theorem of_eq_map
    (takes : TakesNumbers read fits context shown)
    {whole : String → Decoded β}
    (change : α → β)
    (same : ∀ literal, whole literal = (read literal).map change) :
    TakesNumbers whole fits context shown := by
  refine takes.follow (fun literal value accepted => ?_) fun literal reason refused => ?_
  · exact ⟨change value, by rw [same, accepted]; rfl⟩
  · rw [same, refused]
    rfl

end TakesNumbers

/-! ## Readers of integers -/

theorem takesNumbers_readInteger (context : String) :
    TakesNumbers (fun literal => (Json.number literal).readInteger context)
      (fun _ => True) context id where
  invalid literal written := by simp only [Json.readInteger, written]
  fitting n _ := ⟨n, Json.readInteger_eq_ok_iff.mpr rfl⟩
  outside n notFitting := absurd trivial notFitting

/-- What is read from an integer is read behind it. -/
theorem readInteger_bind
    {α : Type}
    (context : String)
    (n : Int)
    (next : Int → Decoded α) :
    (Json.number (Decimal.ofInt n)).readInteger context >>= next = next n := by
  have read : (Json.number (Decimal.ofInt n)).readInteger context = .ok n :=
    Json.readInteger_eq_ok_iff.mpr rfl
  rw [read]
  rfl

theorem readInteger_bind_of_invalid
    {α : Type}
    (context : String)
    {literal : String}
    (written : Decimal.toInt? literal = none)
    (next : Int → Decoded α) :
    (Json.number literal).readInteger context >>= next = .error (.invalidInteger literal) := by
  rw [(takesNumbers_readInteger context).invalid literal written]
  rfl

/-- A negative integer is shown in the words by which its document is described. -/
theorem takesNumbers_readNatural (context : String) :
    TakesNumbers (fun literal => (Json.number literal).readNatural context)
      (0 ≤ ·) context ("number " ++ ·) where
  invalid literal written := readInteger_bind_of_invalid context written _
  fitting n isFitting := by
    obtain ⟨m, rfl⟩ := Int.eq_ofNat_of_zero_le isFitting
    exact ⟨m, readInteger_bind context m _⟩
  outside n notFitting := by
    cases n with
    | ofNat m => exact absurd (Int.natCast_nonneg m) notFitting
    | negSucc m => exact readInteger_bind context (.negSucc m) _

theorem takesNumbers_readUnsigned (context : String) :
    TakesNumbers (fun literal => (Json.number literal).readUnsigned context)
      (fun n => 0 ≤ n ∧ n < (UInt64.size : Nat)) context id where
  invalid literal written := readInteger_bind_of_invalid context written _
  fitting n isFitting := by
    simp only [Json.readUnsigned, readInteger_bind, if_pos isFitting]
    exact ⟨_, rfl⟩
  outside n notFitting := by
    simp only [Json.readUnsigned, readInteger_bind, if_neg notFitting, id]

theorem takesNumbers_readTime (context : String) :
    TakesNumbers (fun literal => (Json.number literal).readTime context)
      (fun n => Int64.minValue.toInt ≤ n ∧ n ≤ Int64.maxValue.toInt) context id where
  invalid literal written := readInteger_bind_of_invalid context written _
  fitting n isFitting := by
    simp only [Json.readTime, readInteger_bind, if_pos isFitting]
    exact ⟨_, rfl⟩
  outside n notFitting := by
    simp only [Json.readTime, readInteger_bind, if_neg notFitting, id]

/-! ## Numbers in the documents of nodes -/

namespace Content

/-- What reads one number reads numbers. -/
theorem exists_takesNumbers
    {content : Content}
    {context old : String}
    {carrier : content.Carrier}
    (decoded : content.decode context (.number old) = .ok carrier) :
    ∃ fits place, TakesNumbers (fun literal => content.decode context (.number literal))
      fits place id := by
  cases content with
  | text => cases decoded
  | integer => exact ⟨_, _, takesNumbers_readInteger context⟩
  | unsigned => exact ⟨_, _, takesNumbers_readUnsigned context⟩
  | time => exact ⟨_, _, takesNumbers_readTime context⟩
  | nodes => cases decoded
  | node family =>
      cases family with
      | value => exact ⟨_, _, (takesNumbers_readInteger "Constant").of_eq_map _ fun _ => rfl⟩
      | _ => cases decoded

/-- With other numbers in the place of a number inside, whatever is read takes numbers as
that place does. -/
theorem exists_takesNumbers_put
    {content : Content}
    {context : String}
    {document : Json}
    {carrier : content.Carrier}
    (decoded : content.decode context document = .ok carrier)
    {path : Json.Path}
    {old : String}
    (found : document.part? path = some (.number old)) :
    ∃ fits place,
      TakesNumbers (fun literal => content.decode context (document.put path (.number literal)))
        fits place id := by
  induction path generalizing content context document with
  | nil =>
      obtain rfl : document = .number old := by simpa using found
      simp only [Json.put_nil]
      exact exists_takesNumbers decoded
  | cons step path inductionHypothesis =>
      cases document <;> cases step <;> simp only [Json.part?, Option.bind_eq_some_iff] at found
      case array.index items index =>
          obtain ⟨item, foundItem, found⟩ := found
          obtain ⟨family, rfl⟩ := eq_nodes_of_decode_array decoded
          obtain ⟨_, same, read⟩ := decode_nodes_eq_ok_iff.mp decoded
          obtain rfl := Json.array.inj same
          obtain ⟨before, behind, rfl, _, replaced⟩ := Json.exists_eq_append_cons foundItem
          obtain ⟨nodesBefore, node, nodesBehind, rfl, readBefore, readItem, readBehind⟩ :=
            exists_of_forall₂_append_cons read
          obtain ⟨fits, place, takes⟩ :=
            inductionHypothesis ((decode_node context family item).trans readItem) found
          let change (node : family.Node) := nodesBefore ++ node :: nodesBehind
          refine ⟨fits, place, takes.of_eq_map change fun literal => ?_⟩
          rw [Json.put_index foundItem, replaced, decode,
            decodeItems_append_cons readBefore readBehind, decode_node]
      case object.key members key =>
          obtain ⟨part, foundPart, found⟩ := found
          obtain ⟨family, rfl⟩ := eq_node_of_decode_object decoded
          rw [decode_node] at decoded
          obtain ⟨form, field, _, _, rfl, ⟨argument, readPart⟩, arguments, _, readOther⟩ :=
            Family.exists_field_of_lookup decoded foundPart
          obtain ⟨fits, place, takes⟩ := inductionHypothesis readPart found
          let change (argument : field.content.Carrier) :=
            form.build.apply (Arguments.set field argument form.fields arguments)
          refine ⟨fits, place, takes.of_eq_map change fun literal => ?_⟩
          rw [Json.put_key foundPart, decode_node, readOther]
      all_goals cases found

/-- Texts and names hold no integers. -/
def isNominal : Content → Bool
  | text | node .party | node .asset | node .choiceId => true
  | _ => false

theorem isNominal_of_field
    {family : Family}
    (nominal : (node family).isNominal = true) :
    ∀ form ∈ family.forms, ∀ field ∈ form.fields, field.content.isNominal = true := by
  cases family <;> first | contradiction | decide

/-- There is no number in a text or a name. -/
theorem part?_ne_number
    {content : Content}
    (nominal : content.isNominal = true)
    {context : String}
    {document : Json}
    {carrier : content.Carrier}
    (decoded : content.decode context document = .ok carrier)
    (path : Json.Path)
    (literal : String) :
    document.part? path ≠ some (.number literal) := by
  intro found
  induction path generalizing content context document with
  | nil =>
      obtain rfl : document = .number literal := by simpa using found
      cases content with
      | node family => cases family <;> contradiction
      | text => cases decoded
      | _ => contradiction
  | cons step path inductionHypothesis =>
      cases document <;> cases step <;> simp only [Json.part?, Option.bind_eq_some_iff] at found
      case array.index items index =>
          obtain ⟨family, rfl⟩ := eq_nodes_of_decode_array decoded
          contradiction
      case object.key members key =>
          obtain ⟨part, foundPart, found⟩ := found
          obtain ⟨family, rfl⟩ := eq_node_of_decode_object decoded
          rw [decode_node] at decoded
          obtain ⟨form, field, known, isField, rfl, ⟨argument, readPart⟩, _⟩ :=
            Family.exists_field_of_lookup decoded foundPart
          exact inductionHypothesis
            (isNominal_of_field nominal form (List.mem_of_find?_eq_some known) field isField)
            readPart found
      all_goals cases found

end Content

theorem Family.part?_ne_number
    {family : Family}
    {document : Json}
    {node : family.Node}
    (decoded : family.decode document = .ok node)
    (nominal : (Content.node family).isNominal = true)
    (path : Json.Path)
    (literal : String) :
    document.part? path ≠ some (.number literal) :=
  Content.part?_ne_number nominal
    ((Content.decode_node family.label family document).trans decoded) path literal

/-! ## Numbers in the documents of states -/

section

variable {α β : Type} [Ord α] [Std.TransOrd α] [Std.LawfulEqOrd α]

variable {add : Std.ExtTreeMap α β → Json → Decoded (Std.ExtTreeMap α β)}
variable {readsAs : Json → α × β → Prop}

namespace LoadsBindings

/-- Another value for a key that is there does not affect what is loaded further. -/
theorem foldlM_insert
    (loads : LoadsBindings add readsAs)
    {entries : List Json}
    {map loaded : Std.ExtTreeMap α β}
    (loadsAll : entries.foldlM add map = Except.ok loaded)
    {key : α}
    (present : key ∈ map)
    (value : β) :
    entries.foldlM add (map.insert key value) = Except.ok (loaded.insert key value) := by
  induction entries generalizing map with
  | nil =>
      obtain rfl := Except.ok.inj loadsAll
      rfl
  | cons entry entries inductionHypothesis =>
      rw [List.foldlM_cons, Decoded.bind_eq_ok_iff] at loadsAll
      obtain ⟨next, added, loadsAll⟩ := loadsAll
      obtain ⟨binding, reads, absent, rfl⟩ := (loads _ _ _).mp added
      have different : key ≠ binding.1 := fun same => absent (same ▸ present)
      have stillAbsent : binding.1 ∉ map.insert key value := by
        rw [Std.ExtTreeMap.mem_insert, Std.LawfulEqOrd.compare_eq_iff_eq]
        exact not_or.mpr ⟨different, absent⟩
      have stillPresent : key ∈ map.insert binding.1 binding.2 :=
        Std.ExtTreeMap.mem_insert.mpr (.inr present)
      rw [List.foldlM_cons, (loads _ _ _).mpr ⟨binding, reads, stillAbsent, rfl⟩,
        Decoded.ok_bind, ExtTreeMap.insert_comm _ different]
      exact inductionHypothesis loadsAll stillPresent

/-- Where the value of an entry is read last, with another one in its place the key of the
entry is bound to that one, and loading fails only if it cannot be read. -/
theorem exists_foldlM_set
    (loads : LoadsBindings add readsAs)
    {entries : List Json}
    {loaded : Std.ExtTreeMap α β}
    (loadsAll : entries.foldlM add ∅ = Except.ok loaded)
    {readValue : Json → Decoded β}
    (adds : ∀ {entry binding}, readsAs entry binding → ∀ {map}, binding.1 ∉ map → ∀ value,
      add map (entry.put [.index 1] value) = (readValue value).map (map.insert binding.1))
    {index : Nat}
    {entry : Json}
    (found : entries[index]? = some entry) :
    ∃ binding, readsAs entry binding ∧
      ∀ value, (entries.set index (entry.put [.index 1] value)).foldlM add ∅ =
        (readValue value).map (loaded.insert binding.1) := by
  obtain ⟨before, behind, rfl, _, replaced⟩ := Json.exists_eq_append_cons found
  rw [List.foldlM_append, Decoded.bind_eq_ok_iff] at loadsAll
  obtain ⟨between, loadsBefore, loadsRest⟩ := loadsAll
  rw [List.foldlM_cons, Decoded.bind_eq_ok_iff] at loadsRest
  obtain ⟨_, added, loadsBehind⟩ := loadsRest
  obtain ⟨binding, reads, absent, rfl⟩ := (loads _ _ _).mp added
  refine ⟨binding, reads, fun value => ?_⟩
  rw [replaced, List.foldlM_append, loadsBefore, Decoded.ok_bind, List.foldlM_cons,
    adds reads absent]
  cases readValue value with
  | error reason => rfl
  | ok bound =>
      have loadsFurther := loads.foldlM_insert loadsBehind Std.ExtTreeMap.mem_insert_self bound
      rwa [ExtTreeMap.insert_insert_self] at loadsFurther

end LoadsBindings

end

end Wire

theorem Json.put_pair_second (first second other : Json) :
    (array [first, second]).put [.index 1] other = array [first, other] := by
  rw [put_index rfl, put_nil]
  rfl

namespace State

open Wire (TakesNumbers)

/-- In the place of the amount of an entry, a new account takes natural numbers. -/
theorem addAccount_put_amount
    {entry : Json}
    {binding : Account × Nat}
    (reads : ReadsBalance entry binding)
    {accounts : Std.ExtTreeMap Account Nat}
    (absent : binding.1 ∉ accounts)
    (amount : Json) :
    addAccount accounts (entry.put [.index 1] amount) =
      (amount.readNatural "accounts").map (accounts.insert binding.1) := by
  obtain ⟨owner, asset, rfl, readOwner, readAsset⟩ := reads
  rw [Json.put_pair_second]
  change (Party.decode owner >>= fun owner => Asset.decode asset >>= fun asset =>
    amount.readNatural "accounts" >>= _) = _
  rw [readOwner, readAsset, Decoded.ok_bind, Decoded.ok_bind]
  cases amount.readNatural "accounts" with
  | error reason => rfl
  | ok n => exact if_neg absent

theorem addChoice_put_chosen
    {entry : Json}
    {binding : ChoiceId × Int}
    (reads : ReadsChoice entry binding)
    {choices : Std.ExtTreeMap ChoiceId Int}
    (absent : binding.1 ∉ choices)
    (chosen : Json) :
    addChoice choices (entry.put [.index 1] chosen) =
      (chosen.readInteger "choices").map (choices.insert binding.1) := by
  obtain ⟨choice, rfl, readChoice⟩ := reads
  rw [Json.put_pair_second]
  change (ChoiceId.decode choice >>= _) = _
  rw [readChoice, Decoded.ok_bind, if_neg absent]
  cases chosen.readInteger "choices" <;> rfl

theorem addBinding_put_value
    {entry : Json}
    {binding : String × Int}
    (reads : ReadsBinding entry binding)
    {boundValues : Std.ExtTreeMap String Int}
    (absent : binding.1 ∉ boundValues)
    (value : Json) :
    addBinding boundValues (entry.put [.index 1] value) =
      (value.readInteger "boundValues").map (boundValues.insert binding.1) := by
  rw [show entry = .array [.string binding.1, .integer binding.2] from reads,
    Json.put_pair_second]
  change (if binding.1 ∈ boundValues then _ else _) = _
  rw [if_neg absent]
  cases value.readInteger "boundValues" <;> rfl

/-- The only number in the document of an integer is the document itself. -/
theorem eq_nil_of_part?_integer
    {n : Int}
    {path : Json.Path}
    {old : String}
    (found : (Json.integer n).part? path = some (.number old)) :
    path = [] := by
  rcases path with _ | ⟨key | index, path⟩
  · rfl
  · cases found
  · cases found

section

variable {entry : Json} {path : Json.Path} {old : String}

theorem eq_amount_of_readsBalance
    {binding : Account × Nat}
    (reads : ReadsBalance entry binding)
    (found : entry.part? path = some (.number old)) :
    path = [.index 1] := by
  obtain ⟨owner, asset, rfl, readOwner, readAsset⟩ := reads
  rcases Json.part?_pair_eq_some found (by simp) with
    ⟨behind, rfl, foundKey⟩ | ⟨behind, rfl, foundAmount⟩
  · rcases Json.part?_pair_eq_some foundKey (by simp) with ⟨_, _, found⟩ | ⟨_, _, found⟩
    · exact absurd found (Wire.Family.part?_ne_number readOwner (by rfl) _ _)
    · exact absurd found (Wire.Family.part?_ne_number readAsset (by rfl) _ _)
  · rw [eq_nil_of_part?_integer foundAmount]

theorem eq_chosen_of_readsChoice
    {binding : ChoiceId × Int}
    (reads : ReadsChoice entry binding)
    (found : entry.part? path = some (.number old)) :
    path = [.index 1] := by
  obtain ⟨choice, rfl, readChoice⟩ := reads
  rcases Json.part?_pair_eq_some found (by simp) with ⟨_, _, found⟩ | ⟨behind, rfl, foundChosen⟩
  · exact absurd found (Wire.Family.part?_ne_number readChoice (by rfl) _ _)
  · rw [eq_nil_of_part?_integer foundChosen]

theorem eq_value_of_readsBinding
    {binding : String × Int}
    (reads : ReadsBinding entry binding)
    (found : entry.part? path = some (.number old)) :
    path = [.index 1] := by
  rw [show entry = .array [.string binding.1, .integer binding.2] from reads] at found
  rcases Json.part?_pair_eq_some found (by simp) with
    ⟨further, _, found⟩ | ⟨behind, rfl, foundValue⟩
  · rcases further with _ | ⟨key | index, further⟩ <;> cases found
  · rw [eq_nil_of_part?_integer foundValue]

end

/-- Where the entries under a key are read as bindings, with another value in one of them
the document of a state is read with that value for the key of the entry. -/
theorem exists_decode_put_bound
    {α β : Type} [Ord α] [Std.TransOrd α] [Std.LawfulEqOrd α]
    {add : Std.ExtTreeMap α β → Json → Decoded (Std.ExtTreeMap α β)}
    {readsAs : Json → α × β → Prop}
    (loads : Wire.LoadsBindings add readsAs)
    {readValue : Json → Decoded β}
    (adds : ∀ {entry binding}, readsAs entry binding → ∀ {map}, binding.1 ∉ map → ∀ value,
      add map (entry.put [.index 1] value) = (readValue value).map (map.insert binding.1))
    {key : String}
    {members : Json.Members}
    {entries : List Json}
    (readEntries : readEntries key members = .ok entries)
    {loaded : Std.ExtTreeMap α β}
    (loadsAll : entries.foldlM add ∅ = Except.ok loaded)
    {change : Std.ExtTreeMap α β → State}
    (rereads : ∀ entries : List Json,
      decodeMembers (Json.Members.set key (.array entries) members) =
        (entries.foldlM add ∅ : Decoded _).map change)
    {index : Nat}
    {entry : Json}
    (found : (Json.object members).part? [.key key, .index index] = some entry) :
    ∃ binding, readsAs entry binding ∧
      ∀ value, decode ((Json.object members).put [.key key, .index index, .index 1] value) =
        (readValue value).map fun bound => change (loaded.insert binding.1 bound) := by
  have foundEntries := readEntries_eq_ok_iff.mp readEntries
  obtain ⟨_, foundEntry, same⟩ :=
    Option.bind_eq_some_iff.mp ((Json.part?_key foundEntries _).symm.trans found)
  obtain rfl := Option.some.inj ((Json.part?_nil _).symm.trans same)
  obtain ⟨binding, readsEntry, reloads⟩ := loads.exists_foldlM_set loadsAll adds foundEntry
  refine ⟨binding, readsEntry, fun value => ?_⟩
  rw [Json.put_key foundEntries, Json.put_index foundEntry, decode, rereads, reloads,
    Decoded.map_map]

section

variable {document entry : Json} {state : State} {index : Nat}

theorem exists_decode_put_amount
    (decoded : decode document = .ok state)
    (found : document.part? [.key "accounts", .index index] = some entry) :
    ∃ binding, ReadsBalance entry binding ∧
      ∀ amount, decode (document.put [.key "accounts", .index index, .index 1] amount) =
        (amount.readNatural "accounts").map fun balance =>
          { state with accounts := state.accounts.insert binding.1 balance } := by
  obtain ⟨members, rfl, decoded⟩ := decode_eq_ok_iff.mp decoded
  obtain ⟨_, _, _, reads⟩ := exists_readsStepwise decoded
  exact exists_decode_put_bound loadsBindings_addAccount addAccount_put_amount
    reads.readAccounts reads.loadsAccounts (rereads_of_decodeMembers decoded).accounts found

theorem exists_decode_put_chosen
    (decoded : decode document = .ok state)
    (found : document.part? [.key "choices", .index index] = some entry) :
    ∃ binding, ReadsChoice entry binding ∧
      ∀ chosen, decode (document.put [.key "choices", .index index, .index 1] chosen) =
        (chosen.readInteger "choices").map fun n =>
          { state with choices := state.choices.insert binding.1 n } := by
  obtain ⟨members, rfl, decoded⟩ := decode_eq_ok_iff.mp decoded
  obtain ⟨_, _, _, reads⟩ := exists_readsStepwise decoded
  exact exists_decode_put_bound loadsBindings_addChoice addChoice_put_chosen
    reads.readChoices reads.loadsChoices (rereads_of_decodeMembers decoded).choices found

theorem exists_decode_put_value
    (decoded : decode document = .ok state)
    (found : document.part? [.key "boundValues", .index index] = some entry) :
    ∃ binding, ReadsBinding entry binding ∧
      ∀ value, decode (document.put [.key "boundValues", .index index, .index 1] value) =
        (value.readInteger "boundValues").map fun n =>
          { state with boundValues := state.boundValues.insert binding.1 n } := by
  obtain ⟨members, rfl, decoded⟩ := decode_eq_ok_iff.mp decoded
  obtain ⟨_, _, _, reads⟩ := exists_readsStepwise decoded
  exact exists_decode_put_bound loadsBindings_addBinding addBinding_put_value
    reads.readValues reads.loadsValues (rereads_of_decodeMembers decoded).boundValues found

/-- With another time, the document of a state is read with that time. -/
theorem decode_put_minTime
    (decoded : decode document = .ok state)
    (time : Json) :
    decode (document.put [.key "minTime"] time) =
      (time.readTime "State").map fun minTime => { state with minTime } := by
  obtain ⟨members, rfl, decoded⟩ := decode_eq_ok_iff.mp decoded
  obtain ⟨_, _, _, reads⟩ := exists_readsStepwise decoded
  rw [Json.put_key (Json.Members.read_eq_ok_iff.mp reads.readTime), Json.put_nil, decode,
    (rereads_of_decodeMembers decoded).minTime]

end

/-- A path in the document of a state leads to the balance of an account. -/
def IsBalance (path : Json.Path) : Prop :=
  ∃ index, path = [.key "accounts", .index index, .index 1]

/-- With other numbers in the place of a number inside, the document of a state takes
numbers as that place does. -/
theorem takesNumbers_inside
    {document : Json}
    {state : State}
    (decoded : decode document = .ok state)
    {path : Json.Path}
    {old : String}
    (found : document.part? path = some (.number old)) :
    (IsBalance path → TakesNumbers (fun literal => decode (document.put path (.number literal)))
      (0 ≤ ·) "accounts" ("number " ++ ·)) ∧
    (¬IsBalance path → ∃ fits context,
      TakesNumbers (fun literal => decode (document.put path (.number literal)))
        fits context id) := by
  obtain ⟨members, rfl, decodedMembers⟩ := decode_eq_ok_iff.mp decoded
  obtain ⟨within, ⟨accounts, _, foundAccounts, readAccounts, _⟩,
    ⟨choices, _, foundChoices, readChoices, _⟩,
    ⟨values, _, foundValues, readValues, _⟩, foundTime⟩ :=
      decodeMembers_eq_ok_iff.mp decodedMembers
  rcases path with _ | ⟨key | index, path⟩
  · cases found
  · obtain ⟨part, foundPart, found⟩ := Option.bind_eq_some_iff.mp found
    have isKey := within key (Json.Members.mem_keys_of_lookup_eq_some foundPart)
    simp only [documentKeys, List.mem_cons, List.not_mem_nil, or_false] at isKey
    rcases isKey with rfl | rfl | rfl | rfl
    · obtain rfl := Option.some.inj (foundAccounts.symm.trans foundPart)
      obtain ⟨index, entry, _, _, rfl, foundEntry, readsEntry, found⟩ :=
        exists_entry_of_part? readAccounts found (by simp)
      obtain rfl := eq_amount_of_readsBalance readsEntry found
      obtain ⟨_, _, reread⟩ := exists_decode_put_amount decoded
        (by rw [Json.part?_key foundAccounts, Json.part?_index foundEntry, Json.part?_nil])
      exact ⟨fun _ => (Wire.takesNumbers_readNatural "accounts").of_eq_map _ fun _ => reread _,
        fun other => absurd ⟨index, rfl⟩ other⟩
    · obtain rfl := Option.some.inj (foundChoices.symm.trans foundPart)
      obtain ⟨index, entry, _, _, rfl, foundEntry, readsEntry, found⟩ :=
        exists_entry_of_part? readChoices found (by simp)
      obtain rfl := eq_chosen_of_readsChoice readsEntry found
      obtain ⟨_, _, reread⟩ := exists_decode_put_chosen decoded
        (by rw [Json.part?_key foundChoices, Json.part?_index foundEntry, Json.part?_nil])
      exact ⟨by simp [IsBalance], fun _ =>
        ⟨_, _, (Wire.takesNumbers_readInteger "choices").of_eq_map _ fun _ => reread _⟩⟩
    · obtain rfl := Option.some.inj (foundValues.symm.trans foundPart)
      obtain ⟨index, entry, _, _, rfl, foundEntry, readsEntry, found⟩ :=
        exists_entry_of_part? readValues found (by simp)
      obtain rfl := eq_value_of_readsBinding readsEntry found
      obtain ⟨_, _, reread⟩ := exists_decode_put_value decoded
        (by rw [Json.part?_key foundValues, Json.part?_index foundEntry, Json.part?_nil])
      exact ⟨by simp [IsBalance], fun _ =>
        ⟨_, _, (Wire.takesNumbers_readInteger "boundValues").of_eq_map _ fun _ => reread _⟩⟩
    · obtain rfl := Option.some.inj (foundTime.symm.trans foundPart)
      obtain rfl := eq_nil_of_part?_integer found
      exact ⟨by simp [IsBalance], fun _ =>
        ⟨_, _, (Wire.takesNumbers_readTime "State").of_eq_map _ fun _ =>
          decode_put_minTime decoded _⟩⟩
  · cases found

end State

namespace Canonical.Kind

open Wire (TakesNumbers QuotesNumbers)

/-- A path in the document of a value leads to the balance of an account. -/
def IsBalance : Kind → Json.Path → Prop
  | node _, _ => False
  | state, path => State.IsBalance path

/-- Reads a document with another number at a path. -/
def decodeWithNumber
    (kind : Kind)
    (document : Json)
    (path : Json.Path)
    (literal : String) :
    Decoded kind.Carrier :=
  decode (document.put path (.number literal))

/-- With other numbers in the place of a number inside, a document that is read is judged
by the number alone.  At a balance, an integer below zero is refused with the words that
describe it; anywhere else every error quotes just the text of the number. -/
theorem takesNumbers_put
    (kind : Kind)
    {document : Json}
    {value : kind.Carrier}
    (decoded : decode document = .ok value)
    {path : Json.Path}
    {old : String}
    (found : document.part? path = some (.number old)) :
    (kind.IsBalance path →
      TakesNumbers (kind.decodeWithNumber document path) (0 ≤ ·) "accounts" ("number " ++ ·)) ∧
    (¬kind.IsBalance path →
      (∃ fits context, TakesNumbers (kind.decodeWithNumber document path) fits context id) ∧
        QuotesNumbers (kind.decodeWithNumber document path)) := by
  cases kind with
  | node family =>
      rw [decode_node] at decoded
      obtain ⟨fits, context, takes⟩ := Wire.Content.exists_takesNumbers_put
        ((Wire.Content.decode_node family.label family document).trans decoded) found
      have sameRead literal : (node family).decodeWithNumber document path literal =
          Wire.Content.decode family.label (.node family) (document.put path (.number literal)) :=
        (decode_node family _).trans (Wire.Content.decode_node family.label family _).symm
      rw [← funext sameRead] at takes
      exact ⟨False.elim, fun _ => ⟨⟨fits, context, takes⟩, takes.quotesNumbers⟩⟩
  | state =>
      obtain ⟨atBalance, elsewhere⟩ := State.takesNumbers_inside decoded found
      refine ⟨atBalance, fun noBalance => ?_⟩
      obtain ⟨fits, context, takes⟩ := elsewhere noBalance
      exact ⟨⟨fits, context, takes⟩, takes.quotesNumbers⟩

/-- The document of a state with one account. -/
def oneAccount (balance : String) : Json :=
  .object [
    ("accounts", .array [.array [
      .array [.object [("role_token", .string "a")],
        .object [("currency_symbol", .string ""), ("token_name", .string "")]],
      .number balance]]),
    ("choices", .array []), ("boundValues", .array []), ("minTime", .number "0")]

/-- The place of its balance. -/
def onlyBalance : Json.Path :=
  [.key "accounts", .index 0, .index 1]

theorem takesNumbers_put_onlyBalance :
    (∃ value, (decode (oneAccount "5") : Decoded State) = .ok value) ∧
      (oneAccount "5").part? onlyBalance = some (.number "5") ∧
      TakesNumbers (state.decodeWithNumber (oneAccount "5") onlyBalance)
        (0 ≤ ·) "accounts" ("number " ++ ·) := by
  obtain ⟨value, decoded⟩ :
      ∃ value, (decode (oneAccount "5") : Decoded state.Carrier) = .ok value := ⟨_, rfl⟩
  have found : (oneAccount "5").part? onlyBalance = some (.number "5") := by rfl
  exact ⟨⟨value, decoded⟩, found, (takesNumbers_put state decoded found).1 ⟨0, rfl⟩⟩

/-- The error of a balance below zero does not quote just the number. -/
theorem decode_oneAccount_belowZero :
    (decode (oneAccount "-5") : Decoded State) = .error (.outOfRange "accounts" "number -5") := by
  rfl

end Canonical.Kind
end Covenant
