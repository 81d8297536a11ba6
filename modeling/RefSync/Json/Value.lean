/-
JSON documents with ordered object members. `Json.same` is the equality that
decides whether a document needs to be written: member order does not count and
numbers are compared by value, with `false` and `true` as 0 and 1.
-/

import RefSync.Binary64
import RefSync.Table

namespace RefSync

inductive Json where
  | null
  | bool (value : Bool)
  | int (value : Int)
  | real (value : Binary64)
  | str (value : String)
  | arr (items : List Json)
  | obj (members : List (String × Json))
deriving Inhabited

/-- The members of an object, in document order. -/
abbrev Document := Table Json

namespace Json

/-- A scalar as a number. -/
def number? : Json → Option (Int ⊕ Binary64)
  | .bool value => some (.inl (if value then 1 else 0))
  | .int value => some (.inl value)
  | .real value => some (.inr value)
  | _ => none

def sameNumber : Int ⊕ Binary64 → Int ⊕ Binary64 → Bool
  | .inl left, .inl right => left == right
  | .inl left, .inr right => right.toInt? == some left
  | .inr left, .inl right => left.toInt? == some right
  | .inr left, .inr right => left.same right

def sameScalar (left right : Json) : Bool :=
  match left, right with
  | .null, .null => true
  | .str left, .str right => left == right
  | _, _ =>
      match left.number?, right.number? with
      | some left, some right => sameNumber left right
      | _, _ => false

mutual
/-- Equality of documents up to member order and number spelling. -/
def same : Json → Json → Bool
  | .arr left, right =>
      match right with
      | .arr right => sameItems left right
      | _ => false
  | .obj left, right =>
      match right with
      | .obj right => left.length == right.length && sameMembers left right
      | _ => false
  | left, right => sameScalar left right
termination_by structural left => left

def sameItems : List Json → List Json → Bool
  | [], right => right.isEmpty
  | left :: lefts, right =>
      match right with
      | right :: rights => left.same right && sameItems lefts rights
      | [] => false
termination_by structural left => left

/-- Every member of the first list has its key and an equal value in the second. -/
def sameMembers : List (String × Json) → List (String × Json) → Bool
  | [], _ => true
  | (key, value) :: rest, right =>
      (match right.lookup key with
        | some other => value.same other
        | none => false)
        && sameMembers rest right
termination_by structural left => left
end

def members? : Json → Option Document
  | .obj members => some members
  | _ => none

def str? : Json → Option String
  | .str value => some value
  | _ => none

/-- Neither absent in spirit nor empty: not null, false, zero, or an empty text,
array or object. -/
def isSubstantial : Json → Bool
  | .null => false
  | .bool value => value
  | .int value => value != 0
  | .real value => !value.isZero
  | .str value => value != ""
  | .arr items => !items.isEmpty
  | .obj members => !members.isEmpty

end Json

/-- Whether two documents are the same document. -/
def Document.same (left right : Document) : Bool :=
  (Json.obj left).same (.obj right)

end RefSync
