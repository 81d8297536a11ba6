/-
Trees that are cleared. Directories are taken away with everything below them while files come to
be in other places. What is still to be taken away plays no part: a tree in the middle of it has
everything that is left in the end, and one from which all is gone has gained some files at most.
-/

import Mathlib.Data.List.Induction
import Mathlib.Data.List.Nodup
import RefSync.Proofs.FileTree.Gaining

namespace RefSync.FileTree

open Path

variable {tree before between after : FileTree} {gone own : Place → Prop} {roots : List Place}

/-! ### Places that are listed once -/

/-- Whether no place has two entries. -/
def IsDistinct (tree : FileTree) : Prop :=
  (tree.entries.map (·.1)).Nodup

instance (tree : FileTree) : Decidable tree.IsDistinct :=
  inferInstanceAs (Decidable (tree.entries.map (·.1)).Nodup)

theorem IsDistinct.get? (distinct : tree.IsDistinct) {place : Place} {entry : Entry}
    (member : (place, entry) ∈ tree.entries) (below : place ≠ []) :
    tree.get? place = some entry := by
  have inside : place.isEmpty = false := by simpa using below
  rw [FileTree.get?, inside, if_neg (by decide)]
  cases found : tree.entries.lookup place with
  | none => exact absurd (List.lookup_eq_none_iff.mp found _ member) (by simp)
  | some other =>
      obtain ⟨front, rest, spelled, _⟩ := List.lookup_eq_some_iff.mp found
      have there : (place, other) ∈ tree.entries := by
        rw [spelled]
        exact List.mem_append_right front List.mem_cons_self
      rw [(Prod.mk.inj (List.inj_on_of_nodup_map distinct there member rfl)).2]

theorem IsDistinct.remove (distinct : tree.IsDistinct) (place : Place) :
    (tree.remove place).IsDistinct :=
  distinct.sublist (List.filter_sublist.map _)

theorem IsDistinct.put (distinct : tree.IsDistinct) (place : Place) (entry : Entry) :
    (tree.put place entry).IsDistinct := by
  obtain ⟨entries⟩ := tree
  have places : ∀ entries : List (Place × Entry), (putIn place entry entries).map (·.1)
      = if place ∈ entries.map (·.1) then entries.map (·.1) else entries.map (·.1) ++ [place] := by
    intro entries
    induction entries with
    | nil => rfl
    | cons head rest ih =>
        obtain ⟨first, present⟩ := head
        rw [putIn]
        by_cases same : first = place
        · rw [if_pos (beq_iff_eq.mpr same), same]
          simp
        · rw [if_neg (mt eq_of_beq same), List.map_cons, ih]
          by_cases later : place ∈ rest.map (·.1)
          · simp [later]
          · simp [later, Ne.symm same]
  change (_ : List Place).Nodup
  rw [FileTree.put, places]
  split
  · exact distinct
  · rename_i absent
    exact List.nodup_append.mpr ⟨distinct, List.nodup_singleton place, fun other listed _ last same =>
      absent (List.mem_singleton.mp last ▸ same ▸ listed)⟩

/-- To put what is there changes nothing. -/
theorem put_of_get? {place : Place} {entry : Entry} (below : place ≠ [])
    (found : tree.get? place = some entry) : tree.put place entry = tree := by
  have inside : place.isEmpty = false := by simpa using below
  rw [get?, inside, if_neg (by decide)] at found
  have same : ∀ entries : List (Place × Entry), entries.lookup place = some entry →
      putIn place entry entries = entries := by
    intro entries found
    induction entries with
    | nil => cases found
    | cons head rest ih =>
        obtain ⟨first, present⟩ := head
        rw [putIn]
        by_cases here : first = place
        · rw [here, List.lookup_cons_self, Option.some.injEq] at found
          rw [if_pos (beq_iff_eq.mpr here), here, found]
        · rw [List.lookup_cons, beq_false_of_ne (Ne.symm here)] at found
          rw [if_neg (mt eq_of_beq here), ih found]
  rw [put, same tree.entries found]

/-! ### Taking directories away -/

/-- What is left of a tree has been there before. -/
theorem keeps_remove (tree : FileTree) (place : Place) :
    Keeps (fun _ => False) (tree.remove place) tree := by
  intro other entry found
  refine ⟨entry, ?_, fun _ => rfl⟩
  cases other with
  | nil => exact found
  | cons first rest =>
      rw [get?_remove tree place _ (List.cons_ne_nil first rest)] at found
      split at found
      · cases found
      · exact found

/-- A tree without some places and everything below them. -/
def removeAll (tree : FileTree) (roots : List Place) : FileTree :=
  roots.foldl remove tree

theorem get?_removeAll (tree : FileTree) (roots : List Place) {place : Place} (below : place ≠ []) :
    (tree.removeAll roots).get? place
      = if roots.any (·.isPrefixOf place) then none else tree.get? place := by
  induction roots generalizing tree with
  | nil => rfl
  | cons root rest ih =>
      rw [removeAll, List.foldl_cons, ← removeAll, ih, get?_remove tree root place below, List.any_cons]
      cases root.isPrefixOf place
      · rfl
      · simp

theorem entries_removeAll (tree : FileTree) (roots : List Place) :
    (tree.removeAll roots).entries.Sublist tree.entries := by
  induction roots generalizing tree with
  | nil => exact .refl _
  | cons root rest ih => exact (ih (tree.remove root)).trans List.filter_sublist

/-- What leads to a directory that is left is left too. -/
theorem get?_above {place : Place} (left : (tree.removeAll roots).isDirectory place = true) (above : Place)
    (leads : above <+: place) : (tree.removeAll roots).get? above = tree.get? above := by
  cases above with
  | nil => rfl
  | cons first rest =>
      have below : place ≠ [] := by
        rintro rfl
        cases List.prefix_nil.mp leads
      rw [isDirectory, get?_removeAll tree roots below] at left
      rw [get?_removeAll tree roots (List.cons_ne_nil first rest), if_neg]
      intro within
      obtain ⟨root, member, isAbove⟩ := List.any_eq_true.mp within
      rw [if_pos] at left
      · cases left
      · rw [List.isPrefixOf_iff_prefix] at isAbove
        exact List.any_eq_true.mpr ⟨root, member, List.isPrefixOf_iff_prefix.mpr (isAbove.trans leads)⟩

/-- Whether a tree is on the way to one without certain places: some of them are gone, and in places
of one's own there are files where no directory stays. -/
def Clears (gone own : Place → Prop) (before after : FileTree) : Prop :=
  ∀ place, after.get? place = before.get? place ∨ gone place ∧ after.get? place = none
    ∨ own place ∧ (before.isDirectory place = true → gone place)
      ∧ ∃ content, after.get? place = some (.file content)

theorem Clears.refl (gone own : Place → Prop) (tree : FileTree) : Clears gone own tree tree :=
  fun _ => Or.inl rfl

theorem Clears.trans (first : Clears gone own before between) (second : Clears gone own between after) :
    Clears gone own before after := by
  intro place
  rcases second place with same | cleared | ⟨mine, free, found⟩
  · rw [same]
    exact first place
  · exact Or.inr (Or.inl cleared)
  · refine Or.inr (Or.inr ⟨mine, fun directory => ?_, found⟩)
    rcases first place with same | cleared | own
    · refine free ?_
      rw [isDirectory, same]
      exact directory
    · exact cleared.1
    · exact own.2.1 directory

theorem Gains.clears (gains : Gains own before after) : Clears gone own before after := by
  intro place
  rcases gains place with same | ⟨mine, free, found⟩
  · exact Or.inl same
  · exact Or.inr (Or.inr ⟨mine, fun directory => absurd (free.symm.trans directory) (by decide), found⟩)

theorem Clears.weaken {more : Place → Prop} (clears : Clears gone own before after)
    (wider : ∀ place, own place → more place) : Clears gone more before after :=
  fun place => (clears place).imp_right (Or.imp_right fun ⟨mine, held⟩ => ⟨wider place mine, held⟩)

theorem clears_remove {root : Place} (tree : FileTree) (below : ∀ place, root <+: place → gone place) :
    Clears gone own tree (tree.remove root) := by
  intro place
  cases place with
  | nil => exact Or.inl rfl
  | cons first rest =>
      rw [get?_remove tree root _ (List.cons_ne_nil first rest)]
      split
      · rename_i within
        exact Or.inr (Or.inl ⟨below _ (List.isPrefixOf_iff_prefix.mp within), rfl⟩)
      · exact Or.inl rfl

/-- Whether a place is one of some places or below one. -/
def IsUnder (roots : List Place) (place : Place) : Prop :=
  ∃ root ∈ roots, root <+: place

theorem any_isPrefixOf {place : Place} : roots.any (·.isPrefixOf place) = true ↔ IsUnder roots place := by
  rw [List.any_eq_true]
  exact exists_congr fun root => and_congr_right fun _ => List.isPrefixOf_iff_prefix

/-- What is left in the end is there all the time. -/
theorem Clears.keeps (clears : Clears (IsUnder roots) own before after) :
    Keeps own (before.removeAll roots) after := by
  intro place entry found
  cases place with
  | nil => exact ⟨entry, found, fun _ => rfl⟩
  | cons first rest =>
      rw [get?_removeAll before roots (List.cons_ne_nil first rest)] at found
      split at found
      · cases found
      rename_i apart
      rw [any_isPrefixOf] at apart
      rcases clears (first :: rest) with same | cleared | ⟨mine, free, content, there⟩
      · exact ⟨entry, same.trans found, fun _ => rfl⟩
      · exact absurd cleared.1 apart
      · refine ⟨_, there, fun kept => ?_⟩
        rcases kept with rfl | elsewhere
        · refine absurd (free ?_) apart
          rw [isDirectory, found]
          rfl
        · exact absurd mine elsewhere

/-- When everything that was to go is gone, a tree has only gained files. -/
theorem Clears.gains (clears : Clears (IsUnder roots) own before after)
    (cleared : ∀ place, IsUnder roots place →
      after.get? place = none ∨ own place ∧ ∃ content, after.get? place = some (.file content)) :
    Gains own (before.removeAll roots) after := by
  intro place
  cases place with
  | nil => exact Or.inl rfl
  | cons first rest =>
      have left := get?_removeAll before roots (List.cons_ne_nil first rest)
      split at left
      · rename_i within
        rcases cleared _ (any_isPrefixOf.mp within) with absent | ⟨mine, found⟩
        · exact Or.inl (absent.trans left.symm)
        · refine Or.inr ⟨mine, ?_, found⟩
          rw [isDirectory, left]
          rfl
      · rename_i apart
        rw [any_isPrefixOf] at apart
        rcases clears (first :: rest) with same | cleared | ⟨mine, free, found⟩
        · exact Or.inl (same.trans left.symm)
        · exact absurd cleared.1 apart
        · refine Or.inr ⟨mine, ?_, found⟩
          rw [isDirectory, left]
          exact Bool.eq_false_iff.mpr fun directory => apart (free directory)

/-! ### Ways on which nothing has gone -/

section

variable {here shared start target : Place} {components rest : List String}

/-- The way down to a place is the same when everything on it is. -/
theorem walkFrom_down_same (down : ".." ∉ components)
    (same : ∀ place, place <+: here ++ components → after.get? place = before.get? place) :
    after.walkFrom here components = before.walkFrom here components := by
  induction components generalizing here with
  | nil => rfl
  | cons part others ih =>
      rw [List.mem_cons, not_or] at down
      have further : after.walkFrom (here ++ [part]) others = before.walkFrom (here ++ [part]) others :=
        ih down.2 fun place leads => same place (by rwa [List.append_assoc] at leads)
      have next := same (here ++ [part]) ⟨others, by rw [List.append_assoc]; rfl⟩
      have named : ¬(part == "..") = true := mt eq_of_beq (Ne.symm down.1)
      rw [walkFrom, walkFrom, isDirectory, isDirectory, same here (List.prefix_append _ _), next,
        if_neg named, if_neg named, further]

/-- So is the way up, when the way from there is. -/
theorem walkFrom_up_same (goesOn : after.walkFrom shared rest = before.walkFrom shared rest)
    (same : ∀ place, place <+: shared ++ start → after.get? place = before.get? place) :
    after.walkFrom (shared ++ start) (start.map (fun _ => "..") ++ rest)
      = before.walkFrom (shared ++ start) (start.map (fun _ => "..") ++ rest) := by
  induction start using List.reverseRecOn with
  | nil =>
      rw [List.append_nil]
      exact goesOn
  | append_singleton front last ih =>
      have further := ih fun place leads => same place (by
        rw [← List.append_assoc]
        exact leads.trans (List.prefix_append _ _))
      rw [map_parent_concat, List.cons_append, walkFrom, walkFrom, if_pos (beq_self_eq_true _),
        if_pos (beq_self_eq_true _), isDirectory, isDirectory, same _ (List.prefix_refl _),
        ← List.append_assoc, List.dropLast_concat, further]

/-- The way from one place to another is the same when everything above the two is. -/
theorem walkFrom_climb_same (down : ".." ∉ target)
    (sameStart : ∀ place, place <+: shared ++ start → after.get? place = before.get? place)
    (sameTarget : ∀ place, place <+: shared ++ target → after.get? place = before.get? place) :
    after.walkFrom (shared ++ start) (climb start target)
      = before.walkFrom (shared ++ start) (climb start target) := by
  induction start generalizing shared target with
  | nil =>
      rw [List.append_nil]
      exact walkFrom_down_same down sameTarget
  | cons first others ih =>
      cases target with
      | nil =>
          have climbs : after.walkFrom (shared ++ (first :: others))
              ((first :: others).map (fun _ => "..") ++ [])
                = before.walkFrom (shared ++ (first :: others))
                  ((first :: others).map (fun _ => "..") ++ []) := walkFrom_up_same rfl sameStart
          rw [List.append_nil] at climbs
          exact climbs
      | cons next below =>
          rw [climb]
          split
          · rename_i met
            rw [eq_of_beq met] at sameStart ⊢
            rw [List.append_cons] at sameStart sameTarget ⊢
            exact ih (List.not_mem_of_not_mem_cons down) sameStart sameTarget
          · exact walkFrom_up_same (walkFrom_down_same down sameTarget) sameStart

end

end RefSync.FileTree
