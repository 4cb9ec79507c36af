import Covenant.Proofs.Json.ReadDocument

/-!
# The plain reading of a text

Read plainly, a text stands for the document that is written in it: objects stay objects,
also those that wrap a number.  Whatever text stands for a document has a plain reading,
and replacing wrapped numbers in the plain reading gives the document
(`Json.exists_readPlain?_of_parse?`).  The two are the same where the plain reading has no
wrapper.
-/

namespace Covenant
namespace Json

/-- The document that is written in a text, with every object as an object. -/
def readPlain? (text : String) : Option Json :=
  (Written.ofText? text).bind Written.plain?

/-- Two documents are the same but for wrapped numbers in the first one, some of which are
the numbers themselves in the second one. -/
inductive Unwraps : Json → Json → Prop
  | wrapper {text literal : String} :
      Numeral.whole? text = some literal →
      Unwraps (object [(numberKey, string text)]) (number literal)
  | null : Unwraps null null
  | bool (value : Bool) : Unwraps (bool value) (bool value)
  | number (literal : String) : Unwraps (number literal) (number literal)
  | string (text : String) : Unwraps (string text) (string text)
  | array {items items' : List Json} :
      List.Forall₂ Unwraps items items' →
      Unwraps (array items) (array items')
  | object {members members' : Members} :
      Members.keys members = Members.keys members' →
      List.Forall₂ Unwraps (members.map Prod.snd) (members'.map Prod.snd) →
      Unwraps (object members) (object members')

/-- Somewhere in a document stands an object whose only member has the key of wrapped
numbers and a text. -/
inductive HasWrapper : Json → Prop
  | here (text : String) : HasWrapper (object [(numberKey, string text)])
  | inside {document part : Json} :
      part ∈ document.parts →
      HasWrapper part →
      HasWrapper document

namespace Unwraps

theorem refl (document : Json) : Unwraps document document := by
  induction document using inductionOnParts with
  | step document inductionHypothesis =>
      cases document with
      | null => exact .null
      | bool value => exact .bool value
      | number literal => exact .number literal
      | string text => exact .string text
      | array items => exact .array (List.forall₂_same.mpr inductionHypothesis)
      | object members => exact .object rfl (List.forall₂_same.mpr inductionHypothesis)

/-- Without a wrapper there is nothing to replace. -/
theorem eq_of_not_hasWrapper
    {plain document : Json}
    (unwraps : plain.Unwraps document)
    (bare : ¬plain.HasWrapper) :
    plain = document := by
  induction plain using inductionOnParts generalizing document with
  | step plain inductionHypothesis =>
      have equal : ∀ part part' : Json, part ∈ plain.parts → part.Unwraps part' → part = part' :=
        fun part part' inside unwraps =>
          inductionHypothesis part inside unwraps fun wrapper => bare (.inside inside wrapper)
      cases unwraps with
      | wrapper => exact absurd (.here _) bare
      | @array items items' related =>
          have both := (List.forall₂_and_left _ _).mpr ⟨fun item inside => inside, related⟩
          have same : List.Forall₂ Eq items items' :=
            both.imp fun item item' found => equal item item' found.1 found.2
          rw [List.forall₂_eq_eq_eq] at same
          rw [same]
      | @object members members' keys related =>
          have both := (List.forall₂_and_left _ _).mpr ⟨fun value inside => inside, related⟩
          have values := both.imp fun value value' found => equal value value' found.1 found.2
          have same : List.Forall₂ Eq members members' :=
            (forall₂_members_iff.mpr ⟨keys, values⟩).imp fun _ _ found => Prod.ext found.1 found.2
          rw [List.forall₂_eq_eq_eq] at same
          rw [same]
      | _ => rfl

end Unwraps

/-- Members with the same keys keep them, and their values stay related, if of members
with the same key the last one is kept. -/
theorem Members.forall₂_ofWritten
    {related : Json → Json → Prop}
    {written written' : Members}
    (alike : List.Forall₂ (fun member member' => member.1 = member'.1 ∧ related member.2 member'.2)
      written written') :
    List.Forall₂ (fun member member' => member.1 = member'.1 ∧ related member.2 member'.2)
      (ofWritten written) (ofWritten written') := by
  refine List.rel_foldl ?_ .nil alike
  rintro before before' alikeBefore ⟨key, value⟩ ⟨key', value'⟩ ⟨same, relatedValue⟩
  obtain rfl : key = key' := same
  induction alikeBefore with
  | nil => exact .cons ⟨rfl, relatedValue⟩ .nil
  | @cons member member' rest rest' alikeMember alikeRest inductionHypothesis =>
      obtain ⟨other, old⟩ := member
      obtain ⟨other', old'⟩ := member'
      obtain ⟨rfl, relatedOld⟩ : other = other' ∧ related old old' := alikeMember
      simp only [set] at inductionHypothesis ⊢
      split
      · exact .cons ⟨rfl, relatedValue⟩ alikeRest
      · exact .cons ⟨rfl, relatedOld⟩ inductionHypothesis

namespace Written

/-- If two changes can be made to every item, one after the other, and a direct one leads
to something related wherever they lead, then so it is for the list. -/
theorem exists_mapM_of_mapM
    {α β γ δ : Type}
    {first : α → Option β}
    {second : β → Option γ}
    {direct : α → Option δ}
    {related : δ → γ → Prop}
    {items : List α}
    {middle : List β}
    {results : List γ}
    (step : ∀ item ∈ items, ∀ between result, first item = some between →
      second between = some result → ∃ other, direct item = some other ∧ related other result)
    (changed : items.mapM first = some middle)
    (changedAgain : middle.mapM second = some results) :
    ∃ others, items.mapM direct = some others ∧ List.Forall₂ related others results := by
  induction items generalizing middle results with
  | nil =>
      obtain rfl := Option.some.inj changed
      obtain rfl := Option.some.inj changedAgain
      exact ⟨[], rfl, .nil⟩
  | cons item items inductionHypothesis =>
      obtain ⟨between, middle, firstItem, firstItems, rfl⟩ := mapM_cons_eq_some_iff.mp changed
      obtain ⟨result, results, secondItem, secondItems, rfl⟩ :=
        mapM_cons_eq_some_iff.mp changedAgain
      obtain ⟨stepItem, stepItems⟩ := List.forall_mem_cons.mp step
      obtain ⟨other, directItem, relatedItem⟩ := stepItem between result firstItem secondItem
      obtain ⟨others, directItems, relatedItems⟩ :=
        inductionHypothesis stepItems firstItems secondItems
      exact ⟨other :: others,
        mapM_cons_eq_some_iff.mpr ⟨other, others, directItem, directItems, rfl⟩,
        .cons relatedItem relatedItems⟩

/-- If a value has a document after replacing wrapped numbers, it has one before, and the
two differ in nothing but the wrapped numbers. -/
def ReadsPlain (written : Written) : Prop :=
  ∀ unwrapped document, unwrap? written = some unwrapped → plain? unwrapped = some document →
    ∃ plain, plain? written = some plain ∧ plain.Unwraps document

namespace ReadsPlain

theorem array
    {items : List Written}
    (plainItems : ∀ item ∈ items, item.ReadsPlain) :
    (Written.array items).ReadsPlain := by
  intro unwrapped document unwraps found
  obtain ⟨items', changed, rfl⟩ := Option.map_eq_some_iff.mp unwraps
  obtain ⟨documents, changedAgain, rfl⟩ := Option.map_eq_some_iff.mp found
  rw [unwrapItems?_eq_mapM] at changed
  rw [plainItems?_eq_mapM] at changedAgain
  obtain ⟨plains, direct, related⟩ := exists_mapM_of_mapM plainItems changed changedAgain
  refine ⟨.array plains, ?_, .array related⟩
  rw [plain?, plainItems?_eq_mapM, direct]
  rfl

/-- A wrapper has a plain document, which unwraps to the number. -/
theorem wrapper
    {members : Members}
    (isWrapper : wrapsNumber members = true) :
    (Written.object members).ReadsPlain := by
  intro number document unwraps found
  rw [unwrap?, if_pos isWrapper, wrappedNumber?.eq_def] at unwraps
  split at unwraps
  · rename_i key text
    obtain rfl : key = some numberKey := by simpa [wrapsNumber] using isWrapper
    obtain ⟨literal, whole, rfl⟩ := Option.map_eq_some_iff.mp unwraps
    obtain rfl := Option.some.inj found
    exact ⟨.object [(numberKey, .string text)], rfl, .wrapper whole⟩
  · cases unwraps

/-- A member keeps its key and has a plain value. -/
theorem member
    {key : Option String}
    {value : Written}
    (plainValue : value.ReadsPlain)
    {between : Option String × Written}
    {result : String × Json}
    (unwraps : (unwrap? value).map (key, ·) = some between)
    (found : (between.1.bind fun key => (plain? between.2).map (key, ·)) = some result) :
    ∃ other, (key.bind fun key => (plain? value).map (key, ·)) = some other ∧
      other.1 = result.1 ∧ other.2.Unwraps result.2 := by
  obtain ⟨unwrapped, isUnwrapped, rfl⟩ := Option.map_eq_some_iff.mp unwraps
  obtain ⟨key, rfl, keyed⟩ := Option.bind_eq_some_iff.mp found
  obtain ⟨document, isDocument, rfl⟩ := Option.map_eq_some_iff.mp keyed
  obtain ⟨plain, isPlain, related⟩ := plainValue unwrapped document isUnwrapped isDocument
  exact ⟨(key, plain), by simp [isPlain], rfl, related⟩

theorem object
    {members : Members}
    (noWrapper : ¬wrapsNumber members = true)
    (plainValues : ∀ member ∈ members, member.2.ReadsPlain) :
    (Written.object members).ReadsPlain := by
  intro unwrapped document unwraps found
  rw [unwrap?, if_neg noWrapper] at unwraps
  obtain ⟨members', changed, rfl⟩ := Option.map_eq_some_iff.mp unwraps
  obtain ⟨listed, changedAgain, rfl⟩ := Option.map_eq_some_iff.mp found
  rw [unwrapMembers?_eq_mapM] at changed
  rw [plainMembers?_eq_mapM] at changedAgain
  obtain ⟨plains, direct, related⟩ := exists_mapM_of_mapM
    (fun first inside _ _ => (plainValues first inside).member) changed changedAgain
  obtain ⟨keys, values⟩ := forall₂_members_iff.mp (Json.Members.forall₂_ofWritten related)
  refine ⟨.object (Json.Members.ofWritten plains), ?_, .object keys values⟩
  rw [plain?, plainMembers?_eq_mapM, direct]
  rfl

end ReadsPlain

/-- Replacing wrapped numbers changes nothing else in any document. -/
theorem readsPlain (written : Written) : written.ReadsPlain := by
  induction written using inductionOnParts with
  | step written inductionHypothesis =>
      cases written with
      | array items => exact .array inductionHypothesis
      | object members =>
          by_cases isWrapper : wrapsNumber members = true
          · exact .wrapper isWrapper
          · exact .object isWrapper (List.forall_mem_map.mp inductionHypothesis)
      | _ =>
          intro unwrapped document unwraps found
          obtain rfl := Option.some.inj unwraps
          exact ⟨document, found, .refl document⟩

end Written

/-- A text that stands for a document has a plain reading, which differs from the document
only in having numbers wrapped. -/
theorem exists_readPlain?_of_parse?
    {text : String}
    {document : Json}
    (parsed : parse? text = some document) :
    ∃ plain, readPlain? text = some plain ∧ plain.Unwraps document := by
  obtain ⟨written, isWritten, found⟩ := Option.bind_eq_some_iff.mp parsed
  rw [Written.document?] at found
  split at found
  · obtain ⟨unwrapped, unwraps, plain⟩ := Option.bind_eq_some_iff.mp found
    obtain ⟨plain, isPlain, related⟩ := written.readsPlain unwrapped document unwraps plain
    exact ⟨plain, by rw [readPlain?, isWritten, Option.bind_some, isPlain], related⟩
  · cases found

/-- A document that differs from a legible one at most in the order of keys has no
wrapper. -/
theorem SameUpToKeyOrder.not_hasWrapper
    {document document' : Json}
    (same : document.SameUpToKeyOrder document')
    (legible : document'.Legible) :
    ¬document.HasWrapper := by
  intro wrapper
  induction wrapper generalizing document' with
  | here text =>
      cases same with
      | object reordered keys _ =>
          cases legible with
          | object _ noNumberKey _ =>
              have present := (reordered.map Prod.fst).mem_iff.mp List.mem_cons_self
              exact noNumberKey (keys ▸ present)
  | inside isPart _ inductionHypothesis =>
      obtain ⟨part', inside, samePart⟩ := same.exists_part isPart
      exact inductionHypothesis samePart (legible.part inside)

end Json
end Covenant
