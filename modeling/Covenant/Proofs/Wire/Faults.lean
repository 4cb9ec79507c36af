import Covenant.Proofs.Json.KeyOrder
import Covenant.Wire.Scalar

/-!
# Faults of documents

A decode error says which part of the format was being read and what was found there.
The fault of an error is the first of these (`DecodeError.fault`): it is what the format
requires and the document lacks, without the words for what stands there instead.  Two
readings are alike if both give nodes that are related or both fail by the same fault
(`Decoded.Alike`), and reading step by step preserves this.
-/

namespace Covenant

namespace DecodeError

/-- What is wrong with a document, whatever was found there instead. -/
inductive Fault where
  | unknownTag (context : String)
  | missingField (variant field : String)
  | unexpectedField (variant : String)
  | unexpectedType (context expected : String)
  | invalidInteger (literal : String)
  | outOfRange (context literal : String)
  | duplicateKey (context : String)
  | malformed
deriving DecidableEq

/-- The fault that an error reports: all of the error but the description of what was
found, the extra key, and the repeated key. -/
def fault : DecodeError → Fault
  | unknownTag context _ => .unknownTag context
  | missingField variant field => .missingField variant field
  | unexpectedField variant _ => .unexpectedField variant
  | unexpectedType context expected _ => .unexpectedType context expected
  | invalidInteger literal => .invalidInteger literal
  | outOfRange context literal => .outOfRange context literal
  | duplicateKey context _ => .duplicateKey context
  | malformed => .malformed

end DecodeError

namespace Decoded

/-- Both readings give something, and what they give is related, or both fail by the same
fault. -/
inductive Alike {α β : Type} (related : α → β → Prop) : Decoded α → Decoded β → Prop
  | ok {value : α} {value' : β} :
      related value value' →
      Alike related (.ok value) (.ok value')
  | error {reason reason' : DecodeError} :
      reason.fault = reason'.fault →
      Alike related (.error reason) (.error reason')

/-- Both readings give the same, or both fail by the same fault. -/
abbrev Agree {α : Type} : Decoded α → Decoded α → Prop :=
  Alike (· = ·)

theorem Agree.refl {α : Type} (decoded : Decoded α) : Agree decoded decoded := by
  cases decoded with
  | error reason => exact .error rfl
  | ok value => exact .ok rfl

theorem Alike.bind
    {α β γ δ : Type}
    {related : α → β → Prop}
    {related' : γ → δ → Prop}
    {first : Decoded α}
    {first' : Decoded β}
    {next : α → Decoded γ}
    {next' : β → Decoded δ}
    (alike : Alike related first first')
    (behind : ∀ value value', related value value' → Alike related' (next value) (next' value')) :
    Alike related' (first >>= next) (first' >>= next') := by
  cases alike with
  | ok same => exact behind _ _ same
  | error same => exact .error same

theorem Agree.bind
    {α γ : Type}
    {first first' : Decoded α}
    {next next' : α → Decoded γ}
    (agree : Agree first first')
    (behind : ∀ value, Agree (next value) (next' value)) :
    Agree (first >>= next) (first' >>= next') := by
  apply Alike.bind agree
  rintro value _ rfl
  exact behind value

theorem Agree.map
    {α β : Type}
    {read read' : Decoded α}
    (agree : Agree read read')
    (change : α → β) :
    Agree (read.map change) (read'.map change) := by
  cases agree with
  | ok same => exact .ok (congrArg change same)
  | error same => exact .error same

end Decoded

namespace Json

open Decoded (Alike Agree)

variable {document document' : Json} (reorders : document.Reorders document')
include reorders

/-- A reader that looks into neither arrays nor objects does not see the order of keys. -/
theorem agree_of_forall_array_object
    {α : Type}
    {read : Json → Decoded α}
    (onArrays : ∀ items items', Agree (read (.array items)) (read (.array items')))
    (onObjects : ∀ members members', Agree (read (.object members)) (read (.object members'))) :
    Agree (read document) (read document') := by
  cases reorders.same with
  | array _ => exact onArrays _ _
  | object _ _ _ => exact onObjects _ _
  | _ => exact .refl _

theorem agree_readText (context : String) :
    Agree (document.readText context) (document'.readText context) :=
  agree_of_forall_array_object reorders (fun _ _ => .error rfl) (fun _ _ => .error rfl)

theorem agree_readInteger (context : String) :
    Agree (document.readInteger context) (document'.readInteger context) :=
  agree_of_forall_array_object reorders (fun _ _ => .error rfl) (fun _ _ => .error rfl)

theorem agree_readNatural (context : String) :
    Agree (document.readNatural context) (document'.readNatural context) :=
  agree_of_forall_array_object reorders (fun _ _ => .error rfl) (fun _ _ => .error rfl)

theorem agree_readUnsigned (context : String) :
    Agree (document.readUnsigned context) (document'.readUnsigned context) :=
  agree_of_forall_array_object reorders (fun _ _ => .error rfl) (fun _ _ => .error rfl)

theorem agree_readTime (context : String) :
    Agree (document.readTime context) (document'.readTime context) :=
  agree_of_forall_array_object reorders (fun _ _ => .error rfl) (fun _ _ => .error rfl)

theorem alike_readArray (context : String) :
    Alike (List.Forall₂ Reorders) (document.readArray context) (document'.readArray context) := by
  cases reorders.same with
  | array _ => exact .ok (reorders.items.imp fun _ _ found => found.2)
  | _ => exact .error rfl

theorem alike_readPair (context : String) :
    Alike (fun pair pair' => pair.1.Reorders pair'.1 ∧ pair.2.Reorders pair'.2)
      (document.readPair context) (document'.readPair context) := by
  cases reorders.same with
  | array _ =>
      -- only an array of two is a pair
      rcases reorders.items with _ | ⟨first, _ | ⟨second, _ | ⟨_, _⟩⟩⟩
      case cons.cons.nil => exact .ok ⟨first.2, second.2⟩
      all_goals exact .error rfl
  | _ => exact .error rfl

end Json
end Covenant
