/-
Documents as reading yields them: no key stands twice in an object, and every double is in
its one form. Only such documents are written the same as they are read.
-/

import RefSync.Json.Reader
import RefSync.Proofs.Json.Number
import RefSync.Proofs.Table

namespace RefSync

namespace Json

inductive Clean : Json → Prop where
  | null : Clean .null
  | bool (value : Bool) : Clean (.bool value)
  | int (value : Int) : Clean (.int value)
  | real (value : Binary64) (canonical : value.IsCanonical) : Clean (.real value)
  | str (value : String) : Clean (.str value)
  | arr (items : List Json) (each : ∀ item ∈ items, Clean item) : Clean (.arr items)
  | obj (members : Document) (distinct : members.keys.Nodup)
      (each : ∀ entry ∈ members, Clean entry.2) : Clean (.obj members)

end Json

/-- A clean document's members. -/
structure Document.Clean (document : Document) : Prop where
  distinct : document.keys.Nodup
  each : ∀ entry ∈ document, entry.2.Clean

namespace Document

open Json

theorem clean_obj {document : Document} : (Json.obj document).Clean ↔ Document.Clean document := by
  constructor
  · intro clean
    cases clean with
    | obj _ distinct each => exact ⟨distinct, each⟩
  · intro clean
    exact .obj document clean.distinct clean.each

theorem clean_empty : Document.Clean [] :=
  ⟨List.nodup_nil, nofun⟩

section

variable {document : Document} (clean : Document.Clean document)

include clean

theorem Clean.get? {key : String} {value : Json} (found : Table.get? document key = some value) :
    value.Clean :=
  clean.each _ (Table.mem_of_get? found)

theorem Clean.set (key : String) {value : Json} (cleanValue : value.Clean) :
    Document.Clean (Table.set document key value) := by
  refine ⟨Table.nodup_keys_set clean.distinct key value, fun entry member => ?_⟩
  have found := (Table.get?_eq_some_iff (Table.nodup_keys_set clean.distinct key value)).mpr
    (show (entry.1, entry.2) ∈ Table.set document key value from member)
  rw [Table.get?_set] at found
  split at found
  · cases found
    exact cleanValue
  · exact clean.get? found

theorem Clean.filter (keep : String × Json → Bool) :
    Document.Clean (List.filter keep document) := by
  refine ⟨?_, fun entry member => clean.each entry (List.mem_filter.mp member).1⟩
  exact List.Nodup.sublist (List.Sublist.map _ List.filter_sublist) clean.distinct

theorem Clean.erase (key : String) : Document.Clean (Table.erase document key) :=
  clean.filter _

theorem Clean.perm {other : Document} (same : List.Perm other document) :
    Document.Clean other :=
  ⟨(same.map _).nodup_iff.mpr clean.distinct, fun entry member => clean.each entry (same.mem_iff.mp member)⟩

theorem Clean.sortKeys : Document.Clean (Table.sortKeys document) :=
  clean.perm (sortBy_perm document)

end

theorem clean_members {value : Json} {document : Document} (clean : value.Clean)
    (found : value.members? = some document) : Document.Clean document := by
  cases value with
  | obj members =>
      cases found
      exact clean_obj.mp clean
  | _ => cases found

end Document

/-! ### What is read is clean -/

namespace Json.Reader

private theorem clean_unsigned {negative : Bool} {text rest : List Char} {value : Json}
    (found : unsigned? negative text = some (value, rest)) : value.Clean := by
  rw [unsigned_eq] at found
  split at found
  · cases found
  · split at found
    · cases found
      exact .int _
    · cases found
      exact .real _ (Binary64.isCanonical_ofDecimal _ _ _)

private theorem clean_scalar {text rest : List Char} {value : Json}
    (found : scalar text = .ok (value, rest)) : value.Clean := by
  unfold scalar at found
  dsimp only at found
  split at found
  · rename_i given others word
    cases found
    split at word
    · cases word; exact .null
    · cases word; exact .bool true
    · cases word; exact .bool false
    · cases word; exact .real _ trivial
    · cases word; exact .real _ trivial
    · cases word; exact .real _ trivial
    · exact clean_unsigned word
    · exact clean_unsigned word
  · cases found

/-- What every reader of values yields, with some fuel. -/
private structure Yields (fuel : Nat) : Prop where
  value {text rest : List Char} {value : Json} :
    Reader.value fuel text = .ok (value, rest) → value.Clean
  items {text rest : List Char} {items : List Json} :
    Reader.items fuel text = .ok (items, rest) → ∀ item ∈ items, item.Clean
  members {before members : Document} {text rest : List Char} : Document.Clean before →
    Reader.members fuel before text = .ok (members, rest) → Document.Clean members

section

variable {fuel : Nat} (yields : Yields fuel) {text rest : List Char}

include yields

private theorem Yields.value_succ {value : Json}
    (found : Reader.value (fuel + 1) text = .ok (value, rest)) : value.Clean := by
  unfold Reader.value at found
  split at found
  · rename_i inside
    cases opened : string ('"' :: inside).length ('"' :: inside).length inside with
    | error stop => rw [opened] at found; cases found
    | ok read => rw [opened] at found; cases found; exact .str _
  · split at found
    · cases found
      exact .arr [] (List.forall_mem_nil _)
    · rename_i inside _ _
      cases read : Reader.items fuel (skipSpace inside) with
      | error stop => rw [read] at found; cases found
      | ok read' =>
          rw [read] at found
          cases found
          exact .arr _ (yields.items read)
  · split at found
    · cases found
      exact .obj [] List.nodup_nil (List.forall_mem_nil _)
    · rename_i inside _ _
      cases read : Reader.members fuel [] (skipSpace inside) with
      | error stop => rw [read] at found; cases found
      | ok read' =>
          rw [read] at found
          cases found
          exact Document.clean_obj.mpr (yields.members Document.clean_empty read)
  · exact clean_scalar found

private theorem Yields.items_succ {items : List Json}
    (found : Reader.items (fuel + 1) text = .ok (items, rest)) : ∀ item ∈ items, item.Clean := by
  rw [Reader.items] at found
  cases read : Reader.value fuel text with
  | error stop => rw [read] at found; cases found
  | ok given =>
      obtain ⟨first, left⟩ := given
      rw [read] at found
      have cleanFirst := yields.value read
      dsimp only [bind, Except.bind] at found
      split at found
      · cases found
        intro item member
        rw [List.mem_singleton.mp member]
        exact cleanFirst
      · rename_i more _
        cases readMore : Reader.items fuel (skipSpace more) with
        | error stop => rw [readMore] at found; cases found
        | ok others =>
            rw [readMore] at found
            cases found
            intro item member
            rcases List.mem_cons.mp member with rfl | inOthers
            · exact cleanFirst
            · exact yields.items readMore item inOthers
      · cases found

private theorem Yields.members_succ {before members : Document} (clean : Document.Clean before)
    (found : Reader.members (fuel + 1) before text = .ok (members, rest)) : Document.Clean members := by
  unfold Reader.members at found
  split at found
  · rename_i inside
    cases opened : string ('"' :: inside).length ('"' :: inside).length inside with
    | error stop => rw [opened] at found; cases found
    | ok readKey =>
        obtain ⟨key, afterKey⟩ := readKey
        rw [opened] at found
        dsimp only [bind, Except.bind] at found
        split at found
        · rename_i afterColon _
          cases read : Reader.value fuel (skipSpace afterColon) with
          | error stop => rw [read] at found; cases found
          | ok given =>
              obtain ⟨value, left⟩ := given
              rw [read] at found
              have cleanMore := clean.set (String.ofList key) (yields.value read)
              dsimp only at found
              split at found
              · cases found
                exact cleanMore
              · exact yields.members cleanMore found
              · cases found
        · cases found
  · cases found

end

private theorem yields (fuel : Nat) : Yields fuel := by
  induction fuel with
  | zero => exact ⟨nofun, nofun, fun _ => nofun⟩
  | succ fuel ih => exact ⟨ih.value_succ, ih.items_succ, ih.members_succ⟩

end Json.Reader

/-- Whatever is read from a text is clean. -/
theorem Json.clean_of_readChars {text : List Char} {value : Json}
    (found : Json.readChars text = .ok value) : value.Clean := by
  unfold readChars at found
  split at found
  · rename_i given whole
    cases found
    unfold Reader.whole at whole
    split at whole
    · cases whole
    · cases read : Reader.value (2 * text.length + 2) (Reader.skipSpace text) with
      | error stop => rw [read] at whole; cases whole
      | ok given =>
          rw [read] at whole
          have clean := (Reader.yields _).value read
          dsimp only [bind, Except.bind] at whole
          split at whole
          · cases whole
            exact clean
          · cases whole
  · cases found

end RefSync
