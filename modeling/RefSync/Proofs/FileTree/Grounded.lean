/-
Trees in which everything is in a directory. Making directories and putting files into them keeps
a tree so, and in such a tree nothing is missing on the way to what is there.
-/

import Mathlib.Data.List.Induction
import RefSync.Proofs.FileTree

namespace RefSync.FileTree

open Path

variable {tree : FileTree}

def IsGrounded (tree : FileTree) : Prop :=
  ∀ place entry, tree.get? place = some entry → tree.isDirectory place.dropLast = true

/-- It is enough to look at every entry. -/
theorem isGrounded_of_entries
    (each : ∀ entry ∈ tree.entries, tree.isDirectory entry.1.dropLast = true) : tree.IsGrounded := by
  intro place entry found
  cases place with
  | nil => rfl
  | cons first rest =>
      obtain ⟨before, after, spelled, _⟩ := List.lookup_eq_some_iff.mp found
      apply each (first :: rest, entry)
      rw [spelled]
      exact List.mem_append_right before List.mem_cons_self

theorem IsGrounded.above (grounded : tree.IsGrounded) {place rest : Place} (below : rest ≠ [])
    (there : (tree.get? (place ++ rest)).isSome) : tree.isDirectory place = true := by
  induction rest using List.reverseRecOn with
  | nil => exact absurd rfl below
  | append_singleton front last ih =>
      obtain ⟨entry, found⟩ := Option.isSome_iff_exists.mp there
      have inside := grounded _ entry found
      rw [← List.append_assoc, List.dropLast_concat] at inside
      by_cases top : front = []
      · rw [top, List.append_nil] at inside
        exact inside
      · apply ih top
        rw [eq_of_beq inside]
        rfl

/-! ### What is put into a tree -/

theorem isDirectory_put {place other : Place} {entry : Entry}
    (fits : entry = .directory ∨ tree.isDirectory place = false)
    (directory : tree.isDirectory other = true) : (tree.put place entry).isDirectory other = true := by
  cases other with
  | nil => rfl
  | cons first rest =>
      rw [isDirectory, get?_put _ _ _ _ (List.cons_ne_nil first rest)]
      by_cases same : first :: rest = place
      · rw [if_pos same]
        rcases fits with rfl | free
        · rfl
        · rw [← same, directory] at free
          cases free
      · rw [if_neg same]
        exact directory

theorem IsGrounded.put (grounded : tree.IsGrounded) {place : Place} {entry : Entry}
    (parent : tree.isDirectory place.dropLast = true)
    (fits : entry = .directory ∨ tree.isDirectory place = false) :
    (tree.put place entry).IsGrounded := by
  intro other present found
  cases other with
  | nil => rfl
  | cons first rest =>
      apply isDirectory_put fits
      rw [get?_put _ _ _ _ (List.cons_ne_nil first rest)] at found
      by_cases same : first :: rest = place
      · rw [same]
        exact parent
      · rw [if_neg same] at found
        exact grounded _ present found

theorem IsGrounded.makeFrom (grounded : tree.IsGrounded) (components : List String) (made : Bool)
    {here : Place} (entered : tree.isDirectory here = true) :
    (tree.makeFrom made here components).2.IsGrounded := by
  induction components generalizing made here tree with
  | nil => exact grounded
  | cons part rest ih =>
      rw [FileTree.makeFrom]
      dsimp only
      split
      · exact ih grounded made (grounded here .directory (eq_of_beq entered))
      · split
        · exact grounded
        · split
          · rename_i found
            apply ih grounded
            rw [isDirectory, found]
            rfl
          · exact grounded
          · apply ih
            · apply grounded.put _ (Or.inl rfl)
              rw [List.dropLast_concat]
              exact entered
            · rw [isDirectory, get?_put _ _ _ _ (by simp), if_pos rfl]
              rfl

/-! ### Ways to what is there -/

section

variable (grounded : tree.IsGrounded)

include grounded

/-- On the way down to something nothing is missing. -/
theorem IsGrounded.walkFrom_down {here : Place} {components : List String}
    (down : ".." ∉ components) (there : (tree.get? (here ++ components)).isSome) :
    tree.walkFrom here components ≠ .error .missing := by
  induction components generalizing here with
  | nil => simp [FileTree.walkFrom]
  | cons part rest ih =>
      rw [List.mem_cons, not_or] at down
      have next : (tree.get? (here ++ [part])).isSome := by
        by_cases last : rest = []
        · rw [last] at there
          exact there
        · have inside : tree.isDirectory (here ++ [part]) = true := by
            apply grounded.above last
            rw [List.append_assoc]
            exact there
          rw [eq_of_beq inside]
          rfl
      rw [FileTree.walkFrom, if_neg (mt eq_of_beq (Ne.symm down.1))]
      split
      · simp
      · split
        · simp
        · split
          · rename_i absent
            rw [absent] at next
            cases next
          · apply ih down.2
            rw [List.append_assoc]
            exact there

omit grounded in
/-- Nor is anything missing on the way up. -/
theorem walkFrom_up {shared start : Place} {rest : List String}
    (goesOn : tree.walkFrom shared rest ≠ .error .missing) :
    tree.walkFrom (shared ++ start) (start.map (fun _ => "..") ++ rest) ≠ .error .missing := by
  induction start using List.reverseRecOn with
  | nil =>
      rw [List.append_nil]
      exact goesOn
  | append_singleton front last ih =>
      rw [map_parent_concat, List.cons_append, FileTree.walkFrom, if_pos (beq_self_eq_true _),
        ← List.append_assoc, List.dropLast_concat]
      split
      · simp
      · exact ih

theorem IsGrounded.walkFrom_climb {shared start target : Place} {rest : List String}
    (down : ".." ∉ target ++ rest) (there : (tree.get? (shared ++ (target ++ rest))).isSome) :
    tree.walkFrom (shared ++ start) (climb start target ++ rest) ≠ .error .missing := by
  induction start generalizing shared target with
  | nil =>
      rw [List.append_nil]
      exact grounded.walkFrom_down down there
  | cons first others ih =>
      cases target with
      | nil => exact walkFrom_up (grounded.walkFrom_down down there)
      | cons next below =>
          rw [climb]
          split
          · rename_i same
            rw [eq_of_beq same]
            have further : tree.walkFrom ((shared ++ [next]) ++ others) (climb others below ++ rest)
                ≠ .error .missing := by
              apply ih
              · rw [List.cons_append, List.mem_cons, not_or] at down
                exact down.2
              · rw [List.append_assoc]
                exact there
            rw [List.append_assoc] at further
            exact further
          · rw [List.append_assoc]
            exact walkFrom_up (grounded.walkFrom_down down there)

end

end RefSync.FileTree
