import Covenant.Json.Document
import Covenant.Proofs.Json.KeyOrder
import Covenant.Proofs.Json.Literals
import Covenant.Wire.Encode

/-!
# Compact texts as they are read

A document is legible if its compact text stands for it.  The text of such a document
is cut into the lexemes of the document (`Lexeme.sequence?_render`), and going through
these on the stack builds the tree of what is written (`Written.ofText?_compact`), at
any depth of nesting.
-/

namespace Covenant
namespace Json

/-- All numbers in a document are integers, no object has a key twice, and none has the
key that marks a wrapped number. -/
inductive Legible : Json → Prop
  | null : Legible null
  | bool (value : Bool) : Legible (bool value)
  | integer (n : Int) : Legible (integer n)
  | string (text : String) : Legible (string text)
  | array {items : List Json} :
      (∀ item ∈ items, Legible item) →
      Legible (array items)
  | object {members : Members} :
      (Members.keys members).Nodup →
      numberKey ∉ Members.keys members →
      (∀ member ∈ members, Legible member.2) →
      Legible (object members)

theorem Legible.part
    {document part : Json}
    (legible : document.Legible)
    (inside : part ∈ document.parts) :
    part.Legible := by
  cases legible with
  | array items => exact items part inside
  | object _ _ values =>
      obtain ⟨member, listed, rfl⟩ := List.mem_map.mp inside
      exact values member listed
  | _ => simp [parts, Json.integer] at inside

theorem Legible.of_perm
    {items items' : List Json}
    (legible : (Json.array items').Legible)
    (reordered : items.Perm items') :
    (Json.array items).Legible :=
  .array fun _ listed => legible.part (reordered.mem_iff.mp listed)

mutual

/-- The lexemes of the compact text of a document. -/
def lexemes : Json → List Lexeme
  | null => [.null]
  | bool value => [.bool value]
  | number literal => [.number literal]
  | string text => [.string (some text)]
  | array [] => [.openArray, .closeArray]
  | array (item :: rest) => .openArray :: (item.lexemes ++ lexemesOfItems rest)
  | object [] => [.openObject, .closeObject]
  | object ((key, value) :: rest) =>
    .openObject :: .string (some key) :: .colon :: (value.lexemes ++ lexemesOfMembers rest)

/-- The lexemes of the items behind the first one, and of the end of their array. -/
def lexemesOfItems : List Json → List Lexeme
  | [] => [.closeArray]
  | item :: rest => .comma :: (item.lexemes ++ lexemesOfItems rest)

/-- The lexemes of the members behind the first one, and of the end of their object. -/
def lexemesOfMembers : Members → List Lexeme
  | [] => [.closeObject]
  | (key, value) :: rest =>
    .comma :: .string (some key) :: .colon :: (value.lexemes ++ lexemesOfMembers rest)

end

/-! ## Lexemes -/

namespace Lexeme

theorem isSpace_eq_false_of_next?
    {c : Char}
    {text rest : List Char}
    {lexeme : Lexeme}
    (found : next? (c :: text) = some (lexeme, rest)) :
    isSpace c = false := by
  by_contra space
  simp only [isSpace, Bool.or_eq_true, decide_eq_true_eq, Bool.not_eq_false] at space
  rcases space with ((rfl | rfl) | rfl) | rfl <;>
    simp [next?, Numeral.next?, Numeral.unsigned?, Numeral.integerPart?] at found

/-- A lexeme that a text begins with is the first of its lexemes. -/
theorem sequence?_eq_of_next?
    {text rest : List Char}
    {lexeme : Lexeme}
    (found : next? text = some (lexeme, rest)) :
    sequence? text = (sequence? rest).map (lexeme :: ·) := by
  refine sequence?_of_next? ?_
  cases text with
  | nil => exact found
  | cons c text =>
      rw [List.dropWhile_cons_of_neg (by simp [isSpace_eq_false_of_next? found])]
      exact found

theorem next?_renderString_append
    (text : String)
    (rest : List Char) :
    next? (renderString text ++ rest) = some (string (some text), rest) := by
  rw [renderString, List.cons_append, List.cons_append, List.append_assoc,
    List.singleton_append, next?, StringPart.untilQuote?_flatMap_escaped_append]
  exact congrArg (fun text? => some (string text?, rest)) (StringPart.text?_map_ofChar text)

theorem next?_of_numeral
    {first : Char}
    (begins : first = '-' ∨ first.isDigit = true)
    (others : List Char) :
    next? (first :: others) =
      (Numeral.next? (first :: others)).map fun found =>
        (number (String.ofList found.1), found.2) := by
  rw [next?]
  all_goals
    intro rest same
    obtain ⟨rfl, _⟩ := List.cons.inj same
    simp at begins

theorem next?_ofInt_append
    (n : Int)
    {rest : List Char}
    (ends : EndsValue rest) :
    next? ((Decimal.ofInt n).toList ++ rest) = some (number (Decimal.ofInt n), rest) := by
  obtain ⟨first, others, written, begins⟩ := Numeral.exists_ofInt_eq_cons n
  have found := Numeral.next?_ofInt_append n ends
  rw [written, List.cons_append] at found ⊢
  rw [next?_of_numeral begins, found, Option.map_some, ← written, String.ofList_toList]

theorem endsValue_renderItems_append (items : List Json) (rest : List Char) :
    EndsValue (renderItems items ++ rest) := by
  cases items <;> simp [EndsValue, renderItems]

theorem endsValue_renderMembers_append (members : Members) (rest : List Char) :
    EndsValue (renderMembers members ++ rest) := by
  cases members <;> simp [EndsValue, renderMembers]

/-- The text of a document in front of any text at which it may end is cut into the
lexemes of the document and those of the rest. -/
def ReadsText (document : Json) : Prop :=
  ∀ rest, EndsValue rest →
    sequence? (document.render ++ rest) = (sequence? rest).map (document.lexemes ++ ·)

theorem sequence?_renderItems_append
    {items : List Json}
    (reads : ∀ item ∈ items, ReadsText item)
    (rest : List Char) :
    sequence? (renderItems items ++ rest) =
      (sequence? rest).map (lexemesOfItems items ++ ·) := by
  induction items with
  | nil => exact sequence?_eq_of_next? rfl
  | cons item items inductionHypothesis =>
      obtain ⟨readsItem, readsItems⟩ := List.forall_mem_cons.mp reads
      have behind := inductionHypothesis readsItems
      have ends := endsValue_renderItems_append items rest
      simp only [renderItems, List.cons_append, List.append_assoc]
      refine (sequence?_eq_of_next? rfl).trans ?_
      rw [readsItem _ ends, behind]
      simp [lexemesOfItems, Function.comp_def]

/-- A key and a colon are cut off in front of the value of the key. -/
theorem sequence?_member_append
    {value : Json}
    (reads : ReadsText value)
    (key : String)
    {rest : List Char}
    (ends : EndsValue rest) :
    sequence? (renderString key ++ ':' :: (value.render ++ rest)) =
      (sequence? rest).map fun others =>
        string (some key) :: colon :: (value.lexemes ++ others) := by
  refine (sequence?_eq_of_next? (next?_renderString_append key _)).trans ?_
  rw [sequence?_eq_of_next? rfl, reads _ ends]
  simp [Function.comp_def]

theorem sequence?_renderMembers_append
    {members : Members}
    (reads : ∀ member ∈ members, ReadsText member.2)
    (rest : List Char) :
    sequence? (renderMembers members ++ rest) =
      (sequence? rest).map (lexemesOfMembers members ++ ·) := by
  induction members with
  | nil => exact sequence?_eq_of_next? rfl
  | cons member members inductionHypothesis =>
      obtain ⟨key, value⟩ := member
      obtain ⟨readsValue, readsMembers⟩ := List.forall_mem_cons.mp reads
      have behind := inductionHypothesis readsMembers
      have ends := endsValue_renderMembers_append members rest
      simp only [renderMembers, List.cons_append, List.append_assoc]
      refine (sequence?_eq_of_next? rfl).trans ?_
      rw [sequence?_member_append readsValue key ends, behind]
      simp [lexemesOfMembers, Function.comp_def]

theorem readsText_of_legible
    {document : Json}
    (legible : document.Legible) :
    ReadsText document := by
  induction legible with
  | null => exact fun rest _ => sequence?_eq_of_next? rfl
  | bool value =>
      intro rest _
      cases value <;> exact sequence?_eq_of_next? rfl
  | integer n => exact fun rest ends => sequence?_eq_of_next? (next?_ofInt_append n ends)
  | string text => exact fun rest _ => sequence?_eq_of_next? (next?_renderString_append text rest)
  | @array items _ reads =>
      intro rest _
      cases items with
      | nil =>
          refine (sequence?_eq_of_next? rfl).trans ?_
          have closed : sequence? (']' :: rest) = (sequence? rest).map (closeArray :: ·) :=
            sequence?_eq_of_next? rfl
          change (sequence? (']' :: rest)).map (openArray :: ·) = _
          rw [closed]
          simp [lexemes, Function.comp_def]
      | cons item items =>
          obtain ⟨readsItem, readsItems⟩ := List.forall_mem_cons.mp reads
          have ends := endsValue_renderItems_append items rest
          simp only [render, List.cons_append, List.append_assoc]
          refine (sequence?_eq_of_next? rfl).trans ?_
          rw [readsItem _ ends, sequence?_renderItems_append readsItems]
          simp [lexemes, Function.comp_def]
  | @object members _ _ _ reads =>
      intro rest _
      cases members with
      | nil =>
          refine (sequence?_eq_of_next? rfl).trans ?_
          have closed : sequence? ('}' :: rest) = (sequence? rest).map (closeObject :: ·) :=
            sequence?_eq_of_next? rfl
          change (sequence? ('}' :: rest)).map (openObject :: ·) = _
          rw [closed]
          simp [lexemes, Function.comp_def]
      | cons member members =>
          obtain ⟨key, value⟩ := member
          obtain ⟨readsValue, readsMembers⟩ := List.forall_mem_cons.mp reads
          have ends := endsValue_renderMembers_append members rest
          simp only [render, List.cons_append, List.append_assoc]
          refine (sequence?_eq_of_next? rfl).trans ?_
          rw [sequence?_member_append readsValue key ends,
            sequence?_renderMembers_append readsMembers]
          simp [lexemes, Function.comp_def]

/-- The compact text of a legible document is cut into the lexemes of the document. -/
theorem sequence?_render
    {document : Json}
    (legible : document.Legible) :
    sequence? document.render = some document.lexemes := by
  have cut := readsText_of_legible legible [] (by simp [EndsValue])
  have nothing : sequence? [] = some [] := sequence?_of_blank rfl
  rw [List.append_nil, nothing] at cut
  simpa using cut

end Lexeme

/-! ## Trees of what is written -/

namespace Written

mutual

/-- A document as it is written. -/
def ofDocument : Json → Written
  | .null => .null
  | .bool value => .bool value
  | .number literal => .number literal
  | .string text => .string (some text)
  | .array items => .array (ofItems items)
  | .object members => .object (ofMembers members)

/-- The items of an array as they are written. -/
def ofItems : List Json → List Written
  | [] => []
  | item :: rest => ofDocument item :: ofItems rest

/-- The members of an object as they are written. -/
def ofMembers : Json.Members → Members
  | [] => []
  | (key, value) :: rest => (some key, ofDocument value) :: ofMembers rest

end

namespace Stage

/-- Going through the lexemes of a document, wherever a value comes next, reads the
document and changes nothing around it. -/
def ReadsValue (document : Json) : Prop :=
  ∀ outer, document.lexemes.foldlM next? (value outer) = some (done (ofDocument document) outer)

theorem foldlM_lexemesOfItems
    {items : List Json}
    (reads : ∀ item ∈ items, ReadsValue item)
    (before : List Written)
    (last : Written)
    (outer : List Frame) :
    (lexemesOfItems items).foldlM next? (done last (.array before :: outer)) =
      some (done (.array (before.reverse ++ last :: ofItems items)) outer) := by
  induction items generalizing before last with
  | nil => simp [lexemesOfItems, next?, ofItems]
  | cons item items inductionHypothesis =>
      obtain ⟨readsItem, readsItems⟩ := List.forall_mem_cons.mp reads
      rw [lexemesOfItems, List.foldlM_cons, next?, Option.bind_eq_bind, Option.bind_some,
        List.foldlM_append, readsItem, Option.bind_eq_bind, Option.bind_some,
        inductionHypothesis readsItems]
      simp [ofItems]

theorem foldlM_lexemesOfMembers
    {members : Json.Members}
    (reads : ∀ member ∈ members, ReadsValue member.2)
    (before : Members)
    (key : Option String)
    (last : Written)
    (outer : List Frame) :
    (lexemesOfMembers members).foldlM next? (done last (.object before key :: outer)) =
      some (done (.object (before.reverse ++ (key, last) :: ofMembers members)) outer) := by
  induction members generalizing before key last with
  | nil => simp [lexemesOfMembers, next?, ofMembers]
  | cons member members inductionHypothesis =>
      obtain ⟨nextKey, nextValue⟩ := member
      obtain ⟨readsValue, readsMembers⟩ := List.forall_mem_cons.mp reads
      simp only [lexemesOfMembers, List.foldlM_cons, next?, Option.bind_eq_bind, Option.bind_some,
        List.foldlM_append, readsValue _, inductionHypothesis readsMembers]
      simp [ofMembers]

/-- Where an item or the end of an array may come next, a document is read as the first
item. -/
theorem foldlM_firstItem
    (document : Json)
    (outer : List Frame) :
    document.lexemes.foldlM next? (firstItem outer) =
      document.lexemes.foldlM next? (value (.array [] :: outer)) := by
  cases document with
  | array items => cases items <;> rfl
  | object members => cases members <;> rfl
  | _ => rfl

theorem readsValue (document : Json) : ReadsValue document := by
  induction document using inductionOnParts with
  | step document inductionHypothesis =>
      intro outer
      cases document with
      | array items =>
          cases items with
          | nil => rfl
          | cons item items =>
              obtain ⟨readsItem, readsItems⟩ := List.forall_mem_cons.mp inductionHypothesis
              rw [lexemes, List.foldlM_cons, next?, beginValue?, Option.bind_eq_bind,
                Option.bind_some, List.foldlM_append, foldlM_firstItem, readsItem,
                Option.bind_eq_bind, Option.bind_some, foldlM_lexemesOfItems readsItems]
              rfl
      | object members =>
          cases members with
          | nil => rfl
          | cons member members =>
              obtain ⟨key, first⟩ := member
              rw [parts_object, List.map_cons, List.forall_mem_cons] at inductionHypothesis
              obtain ⟨readsFirst, readsOthers⟩ := inductionHypothesis
              have readsMembers := List.forall_mem_map.mp readsOthers
              simp only [lexemes, List.foldlM_cons, next?, beginValue?, Option.bind_eq_bind,
                Option.bind_some, List.foldlM_append, readsFirst _,
                foldlM_lexemesOfMembers readsMembers]
              rfl
      | _ => rfl

end Stage

/-- The compact text of a legible document writes the document. -/
theorem ofText?_compact
    {document : Json}
    (legible : document.Legible) :
    ofText? document.compact = some (ofDocument document) := by
  rw [ofText?, compact, String.toList_ofList, Lexeme.sequence?_render legible, Option.bind_some,
    ofLexemes?, Stage.readsValue]
  rfl

end Written
end Json
end Covenant
