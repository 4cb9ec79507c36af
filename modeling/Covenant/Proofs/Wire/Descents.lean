import Covenant.Proofs.Contract.Descent
import Covenant.Proofs.Json.Path
import Covenant.Proofs.Wire.Forms
import Mathlib.Data.List.Forall2

/-!
# Descents in documents

The document of a contract has the documents of its continuations under the keys of the
contract, and those of what follows its cases two levels further down.  Descending from a
contract and descending in its document lead to the same contracts, and whichever way is
taken ends at `Contract.close` (`Contract.isMirrored_of_decode`).
-/

namespace Covenant

theorem optionRel_getElem?
    {α β : Type}
    {related : α → β → Prop}
    {items : List α}
    {items' : List β}
    (all : List.Forall₂ related items items')
    (index : Nat) :
    Option.Rel related items[index]? items'[index]? := by
  induction all generalizing index with
  | nil => exact .none
  | cons first rest inductionHypothesis =>
      cases index with
      | zero => exact .some first
      | succ index => exact inductionHypothesis index

theorem optionRel_bind
    {α α' β β' : Type}
    {related : α → β → Prop}
    {related' : α' → β' → Prop}
    {found : Option α}
    {found' : Option β}
    (both : Option.Rel related found found')
    {next : α → Option α'}
    {next' : β → Option β'}
    (further : ∀ first first', related first first' →
      Option.Rel related' (next first) (next' first')) :
    Option.Rel related' (found.bind next) (found'.bind next') := by
  cases both with
  | none => exact .none
  | some first => exact further _ _ first

theorem optionRel_map_left
    {α α' β : Type}
    {related : α → β → Prop}
    {related' : α' → β → Prop}
    {found : Option α}
    {found' : Option β}
    (both : Option.Rel related found found')
    {change : α → α'}
    (changed : ∀ first first', related first first' → related' (change first) first') :
    Option.Rel related' (found.map change) found' := by
  cases both with
  | none => exact .none
  | some first => exact .some (changed _ _ first)

namespace Json

/-- Where the document of what follows a case stands in the document of a contract. -/
def casePath (index : Nat) : Path :=
  [.key "when", .index index, .key "then"]

/-- Where the documents of the continuations stand in the document of a contract: under
`then`, under `then` and `else`, or in the entries of `when` in their order and under
`timeout_continuation`. -/
def continuationPaths : Json → List Path
  | object members =>
    match members.lookup "when" with
    | some (array entries) =>
      (List.range entries.length).map casePath ++ [[.key "timeout_continuation"]]
    | _ =>
      if Members.hasKey members "else" then [[.key "then"], [.key "else"]]
      else [[.key "then"]]
  | _ => []

/-- Where a document leads to by choosing one of the continuation's places by its index again
and again, if there always is one. -/
def descentPath? : Json → List Nat → Option Path
  | _, [] => some []
  | document, index :: indices =>
    document.continuationPaths[index]?.bind fun path =>
      (document.part? path).bind fun part => (part.descentPath? indices).map (path ++ ·)

end Json

namespace Contract

open Json (continuationPaths casePath)
open Wire (Family)

variable {document : Json} {members : Json.Members} {contract next : Contract}

/-- At a path, a document has the document of a contract. -/
def StandsAt (document : Json) (path : Json.Path) (contract : Contract) : Prop :=
  ∃ part, document.part? path = some part ∧ decode part = .ok contract

theorem standsAt_key
    {key context : String}
    {part : Json}
    (found : members.lookup key = some part)
    (read : Wire.Content.decode context (.node .contract) part = .ok next) :
    StandsAt (.object members) [.key key] next := by
  rw [Wire.Content.decode_node] at read
  exact ⟨part, by rw [Json.part?_key found, Json.part?_nil], read⟩

/-- The document of a case has the document of what follows it. -/
theorem standsAt_then_of_decode
    {case : Case}
    (decoded : Case.decode document = .ok case) :
    StandsAt document [.key "then"] case.next := by
  cases document with
  | object members =>
      obtain ⟨form, known, _, arguments, read, rfl⟩ := Family.decode_object_eq_ok_iff.mp decoded
      obtain rfl : form = Wire.caseForms[0] := by
        have listed := List.mem_of_find?_eq_some known
        simpa [Family.forms, Wire.caseForms] using listed
      obtain ⟨action, next, _⟩ := arguments
      obtain ⟨_, ⟨part, found, read⟩, _⟩ := read
      exact standsAt_key found read
  | _ => cases decoded

theorem forall₂_standsAt_casePath
    {entries : List Json}
    {cases : List Case}
    (found : members.lookup "when" = some (.array entries))
    (read : List.Forall₂ (fun entry case => Case.decode entry = .ok case) entries cases) :
    List.Forall₂ (StandsAt (.object members))
      ((List.range entries.length).map casePath) (cases.map Case.next) := by
  rw [List.forall₂_map_left_iff, List.forall₂_map_right_iff, List.forall₂_iff_get]
  obtain ⟨sameLength, read⟩ := List.forall₂_iff_get.mp read
  refine ⟨by rw [List.length_range, sameLength], fun index inRange inside => ?_⟩
  have inEntries : index < entries.length := by rwa [sameLength]
  obtain ⟨part, foundPart, readPart⟩ := standsAt_then_of_decode (read index inEntries inside)
  refine ⟨part, ?_, readPart⟩
  rw [casePath, Json.part?_key found, List.get_eq_getElem, List.getElem_range,
    Json.part?_index (List.getElem?_eq_getElem inEntries)]
  exact foundPart

theorem continuationPaths_of_not_mem
    (noCases : "when" ∉ Json.Members.keys members) :
    continuationPaths (.object members) =
      if "else" ∈ Json.Members.keys members then [[.key "then"], [.key "else"]]
      else [[.key "then"]] := by
  have absent : members.lookup "when" = none := by
    by_contra present
    obtain ⟨value, found⟩ := Option.ne_none_iff_exists'.mp present
    exact noCases (Json.Members.mem_keys_of_lookup_eq_some found)
  simp only [continuationPaths, absent, Json.Members.hasKey_iff]

/-- Where no form but one with a single continuation is left, that is under `then`. -/
theorem continuationPaths_eq_singleton
    {keys : List String}
    (within : ∀ key ∈ Json.Members.keys members, key ∈ keys)
    (noCases : "when" ∉ keys)
    (noElse : "else" ∉ keys) :
    continuationPaths (.object members) = [[.key "then"]] := by
  rw [continuationPaths_of_not_mem (mt (within _) noCases), if_neg (mt (within _) noElse)]

theorem forall₂_continuations_object
    (decoded : decode (.object members) = .ok contract) :
    List.Forall₂ (StandsAt (.object members)) (continuationPaths (.object members))
      contract.continuations := by
  obtain ⟨form, known, within, arguments, read, rfl⟩ := Family.decode_object_eq_ok_iff.mp decoded
  have listed := List.mem_of_find?_eq_some known
  simp only [Family.forms, Wire.contractForms, List.mem_cons, List.not_mem_nil, or_false] at listed
  -- the forms in the order of the schema, each with the fields that hold contracts
  rcases listed with rfl | rfl | rfl | rfl | rfl
  · obtain ⟨-, -, ⟨_, found, read⟩, -⟩ := read
    rw [continuationPaths_eq_singleton within (by decide) (by decide)]
    exact .cons (standsAt_key found read) .nil
  · obtain ⟨-, ⟨_, foundThen, readThen⟩, ⟨_, foundElse, readElse⟩, -⟩ := read
    have hasElse := Json.Members.mem_keys_of_lookup_eq_some foundElse
    rw [continuationPaths_of_not_mem (mt (within _) (by decide)), if_pos hasElse]
    exact .cons (standsAt_key foundThen readThen) (.cons (standsAt_key foundElse readElse) .nil)
  · obtain ⟨-, ⟨_, found, read⟩, -⟩ := read
    rw [continuationPaths_eq_singleton within (by decide) (by decide)]
    exact .cons (standsAt_key found read) .nil
  · obtain ⟨-, -, -, -, ⟨_, found, read⟩, -⟩ := read
    rw [continuationPaths_eq_singleton within (by decide) (by decide)]
    exact .cons (standsAt_key found read) .nil
  · obtain ⟨⟨_, foundCases, readCases⟩, -, ⟨_, found, read⟩, -⟩ := read
    obtain ⟨entries, rfl, readEntries⟩ := Wire.Content.decode_nodes_eq_ok_iff.mp readCases
    simp only [continuationPaths, foundCases]
    exact List.rel_append (forall₂_standsAt_casePath foundCases readEntries)
      (.cons (standsAt_key found read) .nil)

/-- The continuations of a contract that is read are what is read at their places. -/
theorem forall₂_continuations
    (decoded : decode document = .ok contract) :
    List.Forall₂ (StandsAt document) document.continuationPaths contract.continuations := by
  cases document with
  | object members => exact forall₂_continuations_object decoded
  | string text =>
      rw [decode, Family.decode_eq_readAtom (by simp)] at decoded
      have written : contract.encode = .string text := Family.encode_of_readAtom decoded
      cases contract with
      | close => exact .nil
      | _ => simp [encode] at written
  | _ => cases decoded

theorem StandsAt.of_append
    {path further : Json.Path}
    {part : Json}
    (found : document.part? path = some part)
    (stands : StandsAt part further next) :
    StandsAt document (path ++ further) next := by
  obtain ⟨inner, foundInner, read⟩ := stands
  exact ⟨inner, by rw [Json.part?_append, found, Option.bind_some, foundInner], read⟩

/-- Descending in the document leads to the documents of what descending from the contract
leads to, and it leads nowhere where that does. -/
theorem rel_descent
    (decoded : decode document = .ok contract)
    (indices : List Nat) :
    Option.Rel (StandsAt document) (document.descentPath? indices) (contract.descend? indices) := by
  induction indices generalizing document contract with
  | nil =>
      rw [Json.descentPath?, descend?_nil]
      exact .some ⟨document, Json.part?_nil document, decoded⟩
  | cons index indices inductionHypothesis =>
      rw [Json.descentPath?, descend?_cons]
      apply optionRel_bind (optionRel_getElem? (forall₂_continuations decoded) index)
      rintro path next ⟨part, found, read⟩
      rw [found, Option.bind_some]
      exact optionRel_map_left (inductionHypothesis read) fun _ _ stands => stands.of_append found

/-- A document is that of a contract all the way down, and every way down ends. -/
structure IsMirrored (document : Json) (contract : Contract) : Prop where
  /-- The continuations are what is read at their places, one by one. -/
  continuations :
    List.Forall₂ (StandsAt document) document.continuationPaths contract.continuations
  isEnd_iff : contract.continuations = [] ↔ contract = .close
  /-- The same indices lead to the same contracts, or nowhere. -/
  descends : ∀ indices,
    Option.Rel (StandsAt document) (document.descentPath? indices) (contract.descend? indices)
  /-- Whatever is picked, the descent reaches `close`, in no more steps than the height. -/
  ends : ∀ pick, contract.PicksInside pick →
    ∃ steps ≤ contract.height, contract.descend? (picked pick steps) = some .close
  /-- No descent has more steps than the height that it loses. -/
  bounded : ∀ indices next, contract.descend? indices = some next →
    indices.length + next.height ≤ contract.height
  /-- Some descent has as many steps as the height. -/
  longest : ∃ indices : List Nat, indices.length = contract.height ∧
    contract.descend? indices = some .close

theorem isMirrored_of_decode
    (decoded : decode document = .ok contract) :
    IsMirrored document contract where
  continuations := forall₂_continuations decoded
  isEnd_iff := continuations_eq_nil_iff
  descends := rel_descent decoded
  ends _ := exists_descend?_eq_close
  bounded _ _ := length_add_height_le
  longest := contract.exists_descend?_of_length_eq_height

/-- Waits for a notice, after which there is a choice between two contracts. -/
def forkedWait : Contract :=
  let fork := choose (.truth true) .close (assert (.truth false) .close)
  .await [⟨.notify (.truth true), fork⟩] 9 .close

/-- A document of `forkedWait`, with the keys in another order than that of the forms. -/
def forkedWaitDocument : Json :=
  let waived : Json := .object [("then", .string "close"), ("assert", .bool false)]
  let fork : Json := .object [("else", waived), ("then", .string "close"), ("if", .bool true)]
  let notice : Json := .object [("then", fork), ("case", .object [("notify_if", .bool true)])]
  .object [("timeout_continuation", .string "close"), ("timeout", .number "9"),
    ("when", .array [notice])]

theorem isMirrored_forkedWait :
    decode forkedWaitDocument = .ok forkedWait ∧ IsMirrored forkedWaitDocument forkedWait ∧
      forkedWaitDocument.descentPath? [0, 1] =
        some [.key "when", .index 0, .key "then", .key "else"] ∧
      ∃ steps ≤ 3, forkedWait.descend? (picked (fun _ => 0) steps) = some .close := by
  have decoded : decode forkedWaitDocument = .ok forkedWait := by rfl
  have mirrored := isMirrored_of_decode decoded
  exact ⟨decoded, mirrored, by rfl, mirrored.ends _ forkedWait.picksInside_first⟩

end Contract
end Covenant
