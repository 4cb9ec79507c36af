import Covenant.Proofs.Text.Numerals
import Covenant.Proofs.Wire.Numerals
import Std.Data.String.ToInt

/-!
# Numbers and integers

A number in a document is read as an integer exactly if its literal is the decimal text of
that integer, and every integer is written as a number.  Some places hold only integers of a
certain range: there the literal of an integer in the range is read as that integer, and of
another one is out of range; a literal that denotes no integer is refused for that, whatever
the range (`Wire.integersCorrespond`).
-/

namespace Covenant

open Decimal (Denotes)

namespace Json

/-- An integer is read in two steps: first the literal is checked, and then a parser of
integers turns it into one.  What the parser rejects is refused as well. -/
def readChecked (parse : String → Option Int) (literal : String) : Decoded Int :=
  if Decimal.isCanonical literal then
    match parse literal with
    | some n => .ok n
    | none => .error (.invalidInteger literal)
  else .error (.invalidInteger literal)

theorem readInteger_number_eq_ok_iff
    {context literal : String}
    {n : Int} :
    (number literal).readInteger context = .ok n ↔ Denotes literal n := by
  rw [readInteger_eq_ok_iff, Decimal.denotes_iff, integer, number.injEq]

theorem readInteger_number_of_not_denotes
    (context : String)
    {literal : String}
    (noInteger : ∀ n, ¬Denotes literal n) :
    (number literal).readInteger context = .error (.invalidInteger literal) := by
  apply (Wire.takesNumbers_readInteger context).invalid
  apply Option.eq_none_iff_forall_ne_some.mpr
  intro n read
  exact noInteger n (Decimal.denotes_iff.mpr (Decimal.toInt?_eq_some_iff.mp read))

/-- A parser that reads back what is written never rejects a literal that has been checked. -/
theorem exists_parse_of_isCanonical
    {parse : String → Option Int}
    (readsBack : ∀ n, parse (Decimal.ofInt n) = some n)
    {literal : String}
    (canonical : Decimal.isCanonical literal = true) :
    ∃ n, parse literal = some n ∧ Denotes literal n := by
  obtain ⟨n, denotes⟩ := Decimal.isCanonical_iff.mp canonical
  refine ⟨n, ?_, denotes⟩
  rw [Decimal.denotes_iff.mp denotes, readsBack]

theorem readInteger_number_eq_readChecked
    {parse : String → Option Int}
    (readsBack : ∀ n, parse (Decimal.ofInt n) = some n)
    (context literal : String) :
    (number literal).readInteger context = readChecked parse literal := by
  by_cases canonical : Decimal.isCanonical literal = true
  · obtain ⟨n, parsed, denotes⟩ := exists_parse_of_isCanonical readsBack canonical
    rw [readChecked, if_pos canonical, parsed]
    exact readInteger_number_eq_ok_iff.mpr denotes
  · have noInteger : ∀ n, ¬Denotes literal n := fun n denotes =>
      canonical (Decimal.isCanonical_iff.mpr ⟨n, denotes⟩)
    rw [readChecked, if_neg canonical, readInteger_number_of_not_denotes context noInteger]

/-- The decimal text of an integer is a number literal as a whole. -/
theorem whole?_ofInt (n : Int) :
    Numeral.whole? (Decimal.ofInt n) = some (Decimal.ofInt n) := by
  have cut := @Numeral.next?_ofInt_append n [] (by simp [EndsValue])
  rw [List.append_nil] at cut
  simp only [Numeral.whole?, cut, String.ofList_toList]

end Json

namespace Wire

/-- The integers that fit into 64 bits without a sign. -/
def FitsUnsigned (n : Int) : Prop :=
  0 ≤ n ∧ n < 18446744073709551616

/-- The integers that fit into 64 bits with a sign. -/
def FitsTime (n : Int) : Prop :=
  -9223372036854775808 ≤ n ∧ n < 9223372036854775808

instance (n : Int) : Decidable (FitsUnsigned n) :=
  inferInstanceAs (Decidable (_ ∧ _))

instance (n : Int) : Decidable (FitsTime n) :=
  inferInstanceAs (Decidable (_ ∧ _))

/-- How a place reads number literals: a literal that denotes no integer is refused for that;
one that denotes an integer which fits is read as a value of the place that stands for just
this integer; and one that denotes any other integer is out of range. -/
structure ReadsIntegers
    {α β : Type}
    (read : String → Decoded α)
    (fits : Int → Prop)
    (context : String)
    (shown : String → String)
    (toInt : β → Int)
    (put : β → α) :
    Prop where
  invalid : ∀ literal, (∀ n, ¬Denotes literal n) →
    read literal = .error (.invalidInteger literal)
  fitting : ∀ literal n, Denotes literal n → fits n →
    ∃ value, toInt value = n ∧ read literal = .ok (put value)
  outside : ∀ literal n, Denotes literal n → ¬fits n →
    read literal = .error (.outOfRange context (shown literal))

namespace ReadsIntegers

variable {α β γ : Type} {read : String → Decoded α} {fits : Int → Prop} {context : String}
variable {shown : String → String} {toInt : β → Int} {put : β → α}

theorem of_takesNumbers
    (takes : TakesNumbers read fits context shown)
    (exact : ∀ n, fits n → ∃ value, toInt value = n ∧ read (Decimal.ofInt n) = .ok (put value)) :
    ReadsIntegers read fits context shown toInt put where
  invalid literal noInteger := by
    apply takes.invalid
    apply Option.eq_none_iff_forall_ne_some.mpr
    intro n found
    exact noInteger n (Decimal.denotes_iff.mpr (Decimal.toInt?_eq_some_iff.mp found))
  fitting literal n denotes isFitting := by
    rw [Decimal.denotes_iff.mp denotes]
    exact exact n isFitting
  outside literal n denotes notFitting := by
    rw [Decimal.denotes_iff.mp denotes]
    exact takes.outside n notFitting

theorem of_eq_map
    (reads : ReadsIntegers read fits context shown toInt put)
    {whole : String → Decoded γ}
    (change : α → γ)
    (same : ∀ literal, whole literal = (read literal).map change) :
    ReadsIntegers whole fits context shown toInt fun value => change (put value) where
  invalid literal noInteger := by
    rw [same, reads.invalid literal noInteger]
    rfl
  fitting literal n denotes isFitting := by
    obtain ⟨value, standsFor, accepted⟩ := reads.fitting literal n denotes isFitting
    exact ⟨value, standsFor, by rw [same, accepted]; rfl⟩
  outside literal n denotes notFitting := by
    rw [same, reads.outside literal n denotes notFitting]
    rfl

end ReadsIntegers

/-! ## Readers of a range -/

theorem readsIntegers_readUnsigned (context : String) :
    ReadsIntegers (fun literal => (Json.number literal).readUnsigned context) FitsUnsigned
      context id (fun word : UInt64 => (word.toNat : Int)) id := by
  refine .of_takesNumbers (takesNumbers_readUnsigned context) fun n ⟨nonneg, small⟩ => ?_
  have fits : n.toNat < UInt64.size := (Int.toNat_lt nonneg).mpr small
  have standsFor : ((UInt64.ofNat n.toNat).toNat : Int) = n := by
    rw [UInt64.toNat_ofNat_of_lt' fits, Int.toNat_of_nonneg nonneg]
  refine ⟨UInt64.ofNat n.toNat, standsFor, Json.readUnsigned_eq_ok_iff.mpr ?_⟩
  rw [id, standsFor, Json.integer]

theorem readsIntegers_readTime (context : String) :
    ReadsIntegers (fun literal => (Json.number literal).readTime context) FitsTime
      context id Int64.toInt id := by
  have sameRange : (fun n => Int64.minValue.toInt ≤ n ∧ n ≤ Int64.maxValue.toInt) = FitsTime := by
    funext n
    have least : Int64.minValue.toInt = -9223372036854775808 := by decide
    have greatest : Int64.maxValue.toInt = 9223372036854775807 := by decide
    rw [least, greatest, FitsTime]
    exact propext (by omega)
  have takes := takesNumbers_readTime context
  rw [sameRange] at takes
  refine .of_takesNumbers takes fun n ⟨least, greatest⟩ => ?_
  have standsFor : (Int64.ofInt n).toInt = n := Int64.toInt_ofInt_of_le least greatest
  refine ⟨Int64.ofInt n, standsFor, Json.readTime_eq_ok_iff.mpr ?_⟩
  rw [id, standsFor, Json.integer]

theorem readsIntegers_readNatural (context : String) :
    ReadsIntegers (fun literal => (Json.number literal).readNatural context) (0 ≤ ·)
      context ("number " ++ ·) (fun n : Nat => (n : Int)) id := by
  refine .of_takesNumbers (takesNumbers_readNatural context) fun n nonneg => ?_
  refine ⟨n.toNat, Int.toNat_of_nonneg nonneg, Json.readNatural_eq_ok_iff.mpr ?_⟩
  rw [id, Int.toNat_of_nonneg nonneg, Json.integer]

/-! ## Places of a range -/

namespace Family

variable {family inner : Family} {document part : Json} {path : Json.Path} {node : family.Node}

/-- Where a path leads to the value of a key in the object of a node, the form of the object
has a field with that key.  With other documents in the place of the value, the whole is
read with other arguments for that field. -/
theorem exists_decode_put_key
    (reaches : Content.Reaches inner (.node family) document path)
    (decoded : family.decode document = .ok node)
    {key : String}
    (found : document.part? (path ++ [.key key]) = some part) :
    ∃ hole : Hole inner (.node family), hole.path = path ∧
      ∃ form ∈ inner.forms, ∃ arguments, hole.fill (form.build.apply arguments) = node ∧
        ∃ field ∈ form.fields, field.key = key ∧
          ∀ other, family.decode (document.put (path ++ [.key key]) other) =
            (field.content.decode form.name other).map fun argument =>
              hole.fill (form.build.apply
                (Arguments.set field argument form.fields arguments)) := by
  obtain ⟨inside, old, foundInside, readInside, hole, samePath, filled, readOther⟩ :=
    exists_hole_of_reaches reaches decoded
  rw [Json.part?_append, foundInside, Option.bind_some] at found
  cases inside <;> simp only [Json.part?, Option.bind_eq_some_iff, reduceCtorEq] at found
  rename_i members
  obtain ⟨value, foundValue, _⟩ := found
  obtain ⟨form, field, known, isField, isKey, _, arguments, rfl, readField⟩ :=
    exists_field_of_lookup readInside foundValue
  refine ⟨hole, samePath, form, List.mem_of_find?_eq_some known, arguments, filled, field,
    isField, isKey, fun other => ?_⟩
  rw [Json.put_append foundInside, Json.put_key foundValue, Json.put_nil, readOther, readField,
    Decoded.map_map]

/-- With another number in a bound, the whole is read with that number for the end of the
range that has its key. -/
theorem exists_decode_put_bound
    (reaches : Content.Reaches .bound (.node family) document path)
    (decoded : family.decode document = .ok node) :
    ∃ (hole : Hole .bound (.node family)) (old : Bound), hole.path = path ∧
      hole.fill old = node ∧
      (∀ other, family.decode (document.put (path ++ [.key "from"]) other) =
        (other.readUnsigned "Bound").map fun upper => hole.fill { old with upper }) ∧
      ∀ other, family.decode (document.put (path ++ [.key "to"]) other) =
        (other.readUnsigned "Bound").map fun lower => hole.fill { old with lower } := by
  obtain ⟨inside, old, foundInside, readInside, hole, samePath, filled, readOther⟩ :=
    exists_hole_of_reaches reaches decoded
  obtain ⟨members, rfl⟩ : ∃ members, inside = .object members := by
    cases inside with
    | object members => exact ⟨members, rfl⟩
    | _ => cases readInside
  obtain ⟨form, known, within, arguments, read, rfl⟩ := decode_object_eq_ok_iff.mp readInside
  obtain rfl := List.mem_singleton.mp (List.mem_of_find?_eq_some known)
  have rereadUpper := decode_object_set known within read List.mem_cons_self
  have rereadLower := decode_object_set known within read (List.mem_cons_of_mem _ List.mem_cons_self)
  obtain ⟨upper, lower, _⟩ := arguments
  obtain ⟨⟨_, foundUpper, _⟩, ⟨_, foundLower, _⟩, _⟩ := read
  refine ⟨hole, ⟨upper, lower⟩, samePath, filled, fun other => ?_, fun other => ?_⟩
  · rw [Json.put_append foundInside, Json.put_key foundUpper, Json.put_nil, readOther,
      rereadUpper, Decoded.map_map, Content.decode_unsigned]
    rfl
  · rw [Json.put_append foundInside, Json.put_key foundLower, Json.put_nil, readOther,
      rereadLower, Decoded.map_map, Content.decode_unsigned]
    rfl

/-- Only contracts that await an input have a timeout. -/
theorem exists_decode_put_timeout
    (reaches : Content.Reaches .contract (.node family) document path)
    (decoded : family.decode document = .ok node)
    (found : document.part? (path ++ [.key "timeout"]) = some part) :
    ∃ (hole : Hole .contract (.node family)) (cases : List Case) (timeout : Int64)
        (onTimeout : Contract), hole.path = path ∧
      hole.fill (.await cases timeout onTimeout) = node ∧
      ∀ other, family.decode (document.put (path ++ [.key "timeout"]) other) =
        (other.readTime "When").map fun timeout =>
          hole.fill (.await cases timeout onTimeout) := by
  obtain ⟨hole, samePath, form, listed, arguments, filled, field, isField, isKey, readOther⟩ :=
    exists_decode_put_key reaches decoded found
  simp only [forms, contractForms, List.mem_cons, List.not_mem_nil, or_false] at listed
  rcases listed with rfl | rfl | rfl | rfl | rfl <;>
    simp only [List.mem_cons, List.not_mem_nil, or_false] at isField
  case inr.inr.inr.inr =>
      rcases isField with rfl | rfl | rfl
      · contradiction
      · obtain ⟨cases, timeout, onTimeout, _⟩ := arguments
        refine ⟨hole, cases, timeout, onTimeout, samePath, filled, fun other => ?_⟩
        rw [readOther, Content.decode_time]
        rfl
      · contradiction
  -- No other form has the key.
  all_goals grind

end Family

/-- How number literals and integers correspond, where a parser of integers is run on the
literals that pass the check. -/
structure IntegersCorrespond (parse : String → Option Int) : Prop where
  /-- A literal denotes an integer if it is the text that is written for it. -/
  isText : ∀ literal n, Denotes literal n ↔ literal = Decimal.ofInt n
  /-- A literal is read as the integer that it denotes. -/
  reads : ∀ context literal n,
    (Json.number literal).readInteger context = .ok n ↔ Denotes literal n
  /-- A literal that denotes none is refused. -/
  refuses : ∀ context literal, (∀ n, ¬Denotes literal n) →
    (Json.number literal).readInteger context = .error (.invalidInteger literal)
  /-- This is what comes of checking a literal and then parsing it. -/
  stepwise : ∀ context literal,
    (Json.number literal).readInteger context = Json.readChecked parse literal
  /-- What passes the check is parsed, and the parser finds what it denotes. -/
  parses : ∀ literal, Decimal.isCanonical literal = true →
    ∃ n, parse literal = some n ∧ Denotes literal n
  /-- The text of an integer is a number literal as a whole. -/
  writes : ∀ n : Int,
    (Json.Numeral.whole? (Decimal.ofInt n)).map Json.number = some (.integer n)
  writesNatural : ∀ n : Nat,
    (Json.Numeral.whole? (Decimal.ofNat n)).map Json.number = some (.integer n)
  /-- The largest and the smallest number of a bound, wherever in a document the bound is. -/
  bound : ∀ {family : Family} {document node path},
    family.decode document = .ok node →
    Content.Reaches .bound (.node family) document path →
    ∃ (hole : Hole .bound (.node family)) (old : Bound), hole.path = path ∧
      hole.fill old = node ∧
      ReadsIntegers
        (fun literal => family.decode (document.put (path ++ [.key "from"]) (.number literal)))
        FitsUnsigned "Bound" id (fun upper : UInt64 => (upper.toNat : Int))
        (fun upper => hole.fill { old with upper }) ∧
      ReadsIntegers
        (fun literal => family.decode (document.put (path ++ [.key "to"]) (.number literal)))
        FitsUnsigned "Bound" id (fun lower : UInt64 => (lower.toNat : Int))
        fun lower => hole.fill { old with lower }
  /-- The timeout of a contract. -/
  timeout : ∀ {family : Family} {document node path part},
    family.decode document = .ok node →
    Content.Reaches .contract (.node family) document path →
    document.part? (path ++ [.key "timeout"]) = some part →
    ∃ (hole : Hole .contract (.node family)) (cases : List Case) (timeout : Int64)
        (onTimeout : Contract), hole.path = path ∧
      hole.fill (.await cases timeout onTimeout) = node ∧
      ReadsIntegers
        (fun literal =>
          family.decode (document.put (path ++ [.key "timeout"]) (.number literal)))
        FitsTime "When" id Int64.toInt
        fun timeout => hole.fill (.await cases timeout onTimeout)
  /-- The time of a state. -/
  minTime : ∀ {document : Json} {state : State},
    State.decode document = .ok state →
    ReadsIntegers
      (fun literal => State.decode (document.put [.key "minTime"] (.number literal)))
      FitsTime "State" id Int64.toInt
      fun minTime => { state with minTime }
  /-- The balance of an account of a state. -/
  balance : ∀ {document : Json} {state : State} {index : Nat} {entry : Json},
    State.decode document = .ok state →
    document.part? [.key "accounts", .index index] = some entry →
    ∃ binding, State.ReadsBalance entry binding ∧
      ReadsIntegers
        (fun literal => State.decode
          (document.put [.key "accounts", .index index, .index 1] (.number literal)))
        (0 ≤ ·) "accounts" ("number " ++ ·) (fun balance : Nat => (balance : Int))
        fun balance => { state with accounts := state.accounts.insert binding.1 balance }

/-- Number literals and integers correspond exactly, given a parser that reads back what is
written. -/
theorem integersCorrespond
    {parse : String → Option Int}
    (readsBack : ∀ n, parse (Decimal.ofInt n) = some n) :
    IntegersCorrespond parse where
  isText _ _ := Decimal.denotes_iff
  reads _ _ _ := Json.readInteger_number_eq_ok_iff
  refuses context _ noInteger := Json.readInteger_number_of_not_denotes context noInteger
  stepwise := Json.readInteger_number_eq_readChecked readsBack
  parses _ canonical := Json.exists_parse_of_isCanonical readsBack canonical
  writes n := by
    rw [Json.whole?_ofInt]
    rfl
  writesNatural n := by
    rw [← Decimal.ofInt_natCast, Json.whole?_ofInt]
    rfl
  bound decoded reaches := by
    obtain ⟨hole, old, samePath, filled, rereadUpper, rereadLower⟩ :=
      Family.exists_decode_put_bound reaches decoded
    exact ⟨hole, old, samePath, filled,
      (readsIntegers_readUnsigned "Bound").of_eq_map _ fun _ => rereadUpper _,
      (readsIntegers_readUnsigned "Bound").of_eq_map _ fun _ => rereadLower _⟩
  timeout decoded reaches found := by
    obtain ⟨hole, cases, timeout, onTimeout, samePath, filled, reread⟩ :=
      Family.exists_decode_put_timeout reaches decoded found
    exact ⟨hole, cases, timeout, onTimeout, samePath, filled,
      (readsIntegers_readTime "When").of_eq_map _ fun _ => reread _⟩
  minTime decoded :=
    (readsIntegers_readTime "State").of_eq_map _ fun _ => State.decode_put_minTime decoded _
  balance decoded found := by
    obtain ⟨binding, readsEntry, reread⟩ := State.exists_decode_put_amount decoded found
    exact ⟨binding, readsEntry,
      (readsIntegers_readNatural "accounts").of_eq_map _ fun _ => reread _⟩

/-- The document of a contract that awaits the choice of a number between two others. -/
def awaitedNumber : Json :=
  .object [("when", .array [.object [
      ("case", .object [
        ("choose_between", .array [.object [("from", .number "5"), ("to", .number "2")]]),
        ("for_choice", .object [("choice_name", .string "limit"),
          ("choice_owner", .object [("role_token", .string "a")])])]),
      ("then", .string "close")]]),
    ("timeout", .number "9"), ("timeout_continuation", .string "close")]

/-- The place of the two numbers. -/
def numberBounds : Json.Path :=
  [.key "when", .index 0, .key "case", .key "choose_between", .index 0]

theorem reaches_numberBounds :
    Content.Reaches .bound (.node .contract) awaitedNumber numberBounds := by
  refine .field ⟨"when", .nodes .case⟩ rfl (by decide) rfl (.item rfl ?_)
  refine .field ⟨"case", .node .action⟩ rfl (by decide) rfl ?_
  exact .field ⟨"choose_between", .nodes .bound⟩ rfl (by decide) rfl (.item rfl (.here _))

theorem integersCorrespond_toInt? :
    (∀ n, (Decimal.ofInt n).toInt? = some n) ∧ IntegersCorrespond String.toInt? ∧
      Family.contract.decode (awaitedNumber.put (numberBounds ++ [.key "from"])
        (.number "18446744073709551616")) = .error (.outOfRange "Bound" "18446744073709551616") ∧
      Family.contract.decode (awaitedNumber.put (numberBounds ++ [.key "from"])
        (.number "-0")) = .error (.invalidInteger "-0") ∧
      ∃ value, Family.contract.decode (awaitedNumber.put [.key "timeout"]
        (.number "-9223372036854775808")) = .ok value := by
  have readsBack : ∀ n, (Decimal.ofInt n).toInt? = some n := fun n => Int.toInt?_repr n
  have correspond := integersCorrespond readsBack
  obtain ⟨contract, decoded⟩ : ∃ contract, Family.contract.decode awaitedNumber = .ok contract :=
    ⟨_, rfl⟩
  have noInteger : ∀ n, ¬Denotes "-0" n := fun n denotes =>
    absurd (Decimal.isCanonical_iff.mpr ⟨n, denotes⟩) (by decide)
  have large : Denotes "18446744073709551616" 18446744073709551616 :=
    Decimal.denotes_iff.mpr (by rfl)
  have early : Denotes "-9223372036854775808" (-9223372036854775808) :=
    Decimal.denotes_iff.mpr (by rfl)
  obtain ⟨_, _, _, _, takesUpper, _⟩ := correspond.bound decoded reaches_numberBounds
  obtain ⟨_, _, _, _, _, _, takesTimeout⟩ :=
    correspond.timeout decoded (.here awaitedNumber) (by rfl)
  obtain ⟨_, _, accepted⟩ := takesTimeout.fitting _ _ early (by decide)
  exact ⟨readsBack, correspond, takesUpper.outside _ _ large (by decide),
    takesUpper.invalid _ noInteger, _, accepted⟩

end Wire
end Covenant
