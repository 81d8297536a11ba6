/-
Checked reading of documents. A check yields a value or every issue it found, each
with its place in the document; a group of checks collects the issues of all its
members in order.
-/

import RefSync.Json.Value
import RefSync.Text.Number

namespace RefSync.Validation

/-- One step into a document. -/
inductive Step where
  | field (name : String)
  | index (position : Nat)
deriving DecidableEq, Repr

inductive Problem where
  | missing
  | notObject
  | notTable
  | notList
  | notPair
  | tooLong
  | notText
  | notInteger
  | notIntegerText
  | hasFraction
  | notFinite
  | tooLarge
  | notBooleanText
  | notRealText
deriving DecidableEq, Repr

structure Issue where
  place : List Step
  problem : Problem
deriving DecidableEq, Repr

abbrev Checked (α : Type) := Except (List Issue) α

def fail {α : Type} (problem : Problem) : Checked α :=
  .error [⟨[], problem⟩]

/-- A check one step further down. -/
def within {α : Type} (step : Step) : Checked α → Checked α
  | .ok value => .ok value
  | .error issues => .error (issues.map fun issue => { issue with place := step :: issue.place })

/-- Both checks are made, whatever the first one yields. -/
def both {α β : Type} : Checked α → Checked β → Checked (α × β)
  | .ok left, .ok right => .ok (left, right)
  | .ok _, .error issues => .error issues
  | .error issues, .ok _ => .error issues
  | .error issues, .error others => .error (issues ++ others)

/-- All checks are made. -/
def every {α : Type} : List (Checked α) → Checked (List α)
  | [] => .ok []
  | check :: checks => (both check (every checks)).map fun (value, values) => value :: values

def text : Json → Checked String
  | .str value => .ok value
  | _ => fail .notText

/-- An integer written as text. -/
def integerOfText (text : String) : Checked Int :=
  match integerText text with
  | .ok value => .ok value
  | .error .malformed => fail .notIntegerText
  | .error .tooLong => fail .tooLarge

/-- A value that a text has to stand for. -/
def ofText {α : Type} (parse : String → Option α) (problem : Problem) (text : String) :
    Checked α :=
  match parse text with
  | some value => .ok value
  | none => fail problem

/-- Each item of a list, checked at its position. -/
def items {α : Type} (check : Json → Checked α) (values : List Json) : Checked (List α) :=
  every (values.mapIdx fun position value => within (.index position) (check value))

def list {α : Type} (check : Json → Checked α) : Json → Checked (List α)
  | .arr values => items check values
  | _ => fail .notList

/-- A field under its own name or, where that is absent, under another one. -/
def lookup (document : Document) (name other : String) : Option Json :=
  (document.get? name).or (document.get? other)

/-- A document that is refused, with all its issues. -/
structure Rejection where
  model : String
  issues : List Issue
deriving DecidableEq, Repr

def Rejection.message (failure : Rejection) : String :=
  let count := failure.issues.length
  toString count ++ " validation error" ++ (if count = 1 then "" else "s") ++ " for "
    ++ failure.model

end RefSync.Validation
