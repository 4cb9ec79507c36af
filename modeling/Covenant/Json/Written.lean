import Covenant.Json.Lexeme

/-!
# JSON texts as they are written

Between the lexemes of a text and the document that it stands for lies the tree
of what is written: objects still repeat keys, and strings may lack a text.  The
tree is built by going through the lexemes once, with the unfinished arrays and
objects on a stack.
-/

namespace Covenant
namespace Json

/-- A JSON value as it is written. -/
inductive Written where
  | null
  | bool (value : Bool)
  | number (literal : String)
  | string (text? : Option String)
  | array (items : List Written)
  /-- An object with all its members, in the order in which they are written. -/
  | object (members : List (Option String × Written))
deriving Inhabited

namespace Written

/-- The members of an object as they are written. -/
abbrev Members := List (Option String × Written)

/-- An array or object that has been opened and not closed; what it holds so far
is listed backwards. -/
inductive Frame where
  | array (items : List Written)
  /-- An object that waits for the value of a key. -/
  | object (members : Members) (key : Option String)

/-- How far the reading of a value has come.  Every stage lists the arrays and
objects around it, the innermost first. -/
inductive Stage where
  /-- A value comes next. -/
  | value (outer : List Frame)
  /-- The first item of an array comes next, or the end of the array. -/
  | firstItem (outer : List Frame)
  /-- The first key of an object comes next, or the end of the object. -/
  | firstKey (outer : List Frame)
  /-- A further key of an object comes next. -/
  | nextKey (members : Members) (outer : List Frame)
  /-- The colon behind a key comes next. -/
  | colon (members : Members) (key : Option String) (outer : List Frame)
  /-- A value has been read. -/
  | done (value : Written) (outer : List Frame)

namespace Stage

/-- Reads the first lexeme of a value. -/
def beginValue? (outer : List Frame) : Lexeme → Option Stage
  | .openArray => some (firstItem outer)
  | .openObject => some (firstKey outer)
  | .null => some (done .null outer)
  | .bool truth => some (done (.bool truth) outer)
  | .number literal => some (done (.number literal) outer)
  | .string text? => some (done (.string text?) outer)
  | _ => none

/-- Reads one lexeme. -/
def next? : Stage → Lexeme → Option Stage
  | value outer, lexeme => beginValue? outer lexeme
  | firstItem outer, .closeArray => some (done (.array []) outer)
  | firstItem outer, lexeme => beginValue? (.array [] :: outer) lexeme
  | firstKey outer, .closeObject => some (done (.object []) outer)
  | firstKey outer, .string key => some (colon [] key outer)
  | nextKey members outer, .string key => some (colon members key outer)
  | colon members key outer, .colon => some (value (.object members key :: outer))
  | done item (.array items :: outer), .comma => some (value (.array (item :: items) :: outer))
  | done item (.array items :: outer), .closeArray =>
    some (done (.array (item :: items).reverse) outer)
  | done member (.object members key :: outer), .comma =>
    some (nextKey ((key, member) :: members) outer)
  | done member (.object members key :: outer), .closeObject =>
    some (done (.object ((key, member) :: members).reverse) outer)
  | _, _ => none

/-- The value that has been read, if nothing is left open. -/
def result? : Stage → Option Written
  | done found [] => some found
  | _ => none

end Stage

/-- The value that a sequence of lexemes writes. -/
def ofLexemes? (lexemes : List Lexeme) : Option Written :=
  (lexemes.foldlM Stage.next? (.value [])).bind Stage.result?

/-- The value that a text writes. -/
def ofText? (text : String) : Option Written :=
  (Lexeme.sequence? text.toList).bind ofLexemes?

mutual

/-- How many arrays and objects lie on the longest path into a value. -/
def height : Written → Nat
  | array items => heightOfItems items + 1
  | object members => heightOfMembers members + 1
  | _ => 0

/-- The height of the highest item. -/
def heightOfItems : List Written → Nat
  | [] => 0
  | item :: rest => max item.height (heightOfItems rest)

/-- The height of the highest member. -/
def heightOfMembers : Members → Nat
  | [] => 0
  | (_, value) :: rest => max value.height (heightOfMembers rest)

end

end Written
end Json
end Covenant
