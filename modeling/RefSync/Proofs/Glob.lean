/-
Globs and files that come to be. Which directories a glob matches is a matter of the directories
alone, so it finds the same workspaces whatever files they gain.
-/

import RefSync.Glob
import RefSync.Proofs.FileTree.Gaining
import RefSync.Proofs.Path.Components

namespace RefSync

open Path

/-- Whether the names in a tree are names. -/
def FileTree.IsProper (tree : FileTree) : Prop :=
  ∀ entry ∈ tree.entries, ∀ part ∈ entry.1, IsName part

instance (tree : FileTree) : Decidable tree.IsProper :=
  inferInstanceAs (Decidable (∀ entry ∈ tree.entries, ∀ part ∈ entry.1, IsName part))

namespace FileTree

variable {tree : FileTree} {place : Place} {name : String}

theorem mem_names : name ∈ tree.names place ↔ (tree.get? (place ++ [name])).isSome := by
  have listed : name ∈ tree.names place ↔ ∃ entry, (place ++ [name], entry) ∈ tree.entries := by
    unfold names
    rw [List.mem_filterMap]
    constructor
    · rintro ⟨⟨other, entry⟩, member, chosen⟩
      refine ⟨entry, ?_⟩
      dsimp only at chosen
      split at chosen
      · rename_i last ends
        split at chosen
        · rename_i above
          cases chosen
          obtain ⟨front, rfl⟩ := List.getLast?_eq_some_iff.mp ends
          rw [List.dropLast_concat, beq_iff_eq] at above
          exact above ▸ member
        · cases chosen
      · cases chosen
    · rintro ⟨entry, member⟩
      refine ⟨_, member, ?_⟩
      simp only [List.getLast?_concat, List.dropLast_concat, beq_self_eq_true, if_true]
  have filled : (place ++ [name]).isEmpty = false := by simp
  rw [listed, get?, filled, if_neg (by decide)]
  constructor
  · rintro ⟨entry, member⟩
    cases found : tree.entries.lookup (place ++ [name]) with
    | some _ => rfl
    | none => exact absurd (List.lookup_eq_none_iff.mp found _ member) (by simp)
  · intro there
    obtain ⟨entry, found⟩ := Option.isSome_iff_exists.mp there
    obtain ⟨front, rest, spelled, _⟩ := List.lookup_eq_some_iff.mp found
    refine ⟨entry, ?_⟩
    rw [spelled]
    exact List.mem_append_right _ List.mem_cons_self

theorem IsProper.isName (proper : tree.IsProper) (there : (tree.get? (place ++ [name])).isSome) :
    IsName name := by
  have filled : (place ++ [name]).isEmpty = false := by simp
  rw [get?, filled, if_neg (by decide)] at there
  obtain ⟨entry, found⟩ := Option.isSome_iff_exists.mp there
  obtain ⟨front, rest, spelled, _⟩ := List.lookup_eq_some_iff.mp found
  refine proper (place ++ [name], entry) ?_ name (List.mem_append_right _ List.mem_cons_self)
  rw [spelled]
  exact List.mem_append_right _ List.mem_cons_self

end FileTree

namespace Glob

/-! ### Paths below a root -/

/-- The components of a path that starts at a root unless it is absolute. -/
def rooted (root path : String) : List String :=
  if isAbsolute path then parts path else parts root ++ parts path

theorem parts_join_root (root path : String) : parts (join root path) = rooted root path := by
  unfold rooted
  cases absolute : isAbsolute path with
  | true => rw [join, if_pos absolute, if_pos rfl]
  | false => rw [parts_join absolute, if_neg (by decide)]

theorem parts_fromRoot (root directory : String) :
    parts (fromRoot root directory) = rooted root directory := by
  unfold fromRoot
  split
  · rename_i empty
    rw [String.isEmpty_iff.mp empty, rooted, if_neg (by decide), parts_empty, List.append_nil]
  · exact parts_join_root root directory

theorem rooted_join (root : String) {directory name : String} (relative : isAbsolute name = false) :
    rooted root (join directory name) = rooted root directory ++ parts name := by
  unfold rooted
  rw [isAbsolute_join relative, parts_join relative]
  split
  · rfl
  · rw [List.append_assoc]

/-! ### Matches -/

/-- Whether a pattern without wildcards is there. -/
def isThere (tree : FileTree) (root : String) (pattern : List Char) : Bool :=
  if (splitLast pattern).2.isEmpty then
    tree.isDirectoryPath (fromRoot root (String.ofList (splitLast pattern).1))
  else tree.exists? (join root (String.ofList pattern))

/-- The names in a directory that the last component of a pattern matches. -/
def lastNames (tree : FileTree) (inside : String) (last : List Char) (onlyDirectories : Bool) :
    List String :=
  if hasWildcard last then matchingNames tree inside last onlyDirectories
  else literalName tree inside (String.ofList last)

/-- The paths that a pattern matches, one way for each of the forms that a pattern can have. -/
inductive Matches (tree : FileTree) (root : String) : List Char → Bool → String → Prop where
  | literal {pattern : List Char} {only : Bool} (plain : hasWildcard pattern = false)
      (there : isThere tree root pattern = true) : Matches tree root pattern only (String.ofList pattern)
  | top {pattern : List Char} {only : Bool} {name : String} (wild : hasWildcard pattern = true)
      (alone : (splitLast pattern).1 = [])
      (member : name ∈ matchingNames tree root (splitLast pattern).2 only) :
      Matches tree root pattern only name
  | inLiteral {pattern : List Char} {only : Bool} {name : String} (wild : hasWildcard pattern = true)
      (inner : (splitLast pattern).1 ≠ []) (plain : hasWildcard (splitLast pattern).1 = false)
      (member : name ∈ lastNames tree (fromRoot root (String.ofList (splitLast pattern).1))
        (splitLast pattern).2 only) :
      Matches tree root pattern only (join (String.ofList (splitLast pattern).1) name)
  | inMatch {pattern : List Char} {only : Bool} {directory name : String}
      (wild : hasWildcard pattern = true) (inner : (splitLast pattern).1 ≠ [])
      (again : hasWildcard (splitLast pattern).1 = true)
      (shorter : (splitLast pattern).1.length < pattern.length)
      (matched : Matches tree root (splitLast pattern).1 true directory)
      (member : name ∈ lastNames tree (fromRoot root directory) (splitLast pattern).2 only) :
      Matches tree root pattern only (join directory name)

theorem expandFrom_plain {tree : FileTree} {root : String} {pattern : List Char} {only : Bool}
    (plain : hasWildcard pattern = false) :
    expandFrom tree root pattern only
      = if isThere tree root pattern then [String.ofList pattern] else [] := by
  rw [expandFrom]
  dsimp only
  rw [plain]
  rfl

theorem expandFrom_top {tree : FileTree} {root : String} {pattern : List Char} {only : Bool}
    (wild : hasWildcard pattern = true) (alone : (splitLast pattern).1 = []) :
    expandFrom tree root pattern only = matchingNames tree root (splitLast pattern).2 only := by
  rw [expandFrom]
  dsimp only
  rw [wild, alone]
  rfl

theorem expandFrom_below {tree : FileTree} {root : String} {pattern : List Char} {only : Bool}
    (wild : hasWildcard pattern = true) (inner : (splitLast pattern).1 ≠ []) :
    expandFrom tree root pattern only
      = (if hasWildcard (splitLast pattern).1 then
          if (splitLast pattern).1.length < pattern.length then
            expandFrom tree root (splitLast pattern).1 true
          else []
        else [String.ofList (splitLast pattern).1]).flatMap fun directory =>
          (lastNames tree (fromRoot root directory) (splitLast pattern).2 only).map (join directory) := by
  have filled : (splitLast pattern).1.isEmpty = false := by simpa using inner
  rw [expandFrom]
  dsimp only
  rw [wild, filled]
  rfl

theorem mem_expandFrom {tree : FileTree} {root path : String} {pattern : List Char} {only : Bool} :
    path ∈ expandFrom tree root pattern only ↔ Matches tree root pattern only path := by
  induction size : pattern.length using Nat.strongRecOn generalizing pattern only path with
  | _ size ih =>
      subst size
      cases wild : hasWildcard pattern with
      | false =>
          rw [expandFrom_plain wild]
          constructor
          · intro member
            split at member
            · rename_i there
              rw [List.mem_singleton.mp member]
              exact .literal wild there
            · cases member
          · intro matched
            cases matched with
            | literal _ there =>
                rw [if_pos there]
                exact List.mem_singleton.mpr rfl
            | top always => exact absurd (wild.symm.trans always) (by decide)
            | inLiteral always => exact absurd (wild.symm.trans always) (by decide)
            | inMatch always => exact absurd (wild.symm.trans always) (by decide)
      | true =>
          by_cases alone : (splitLast pattern).1 = []
          · rw [expandFrom_top wild alone]
            constructor
            · exact .top wild alone
            · intro matched
              cases matched with
              | literal plain => exact absurd (wild.symm.trans plain) (by decide)
              | top _ _ member => exact member
              | inLiteral _ inner => exact absurd alone inner
              | inMatch _ inner => exact absurd alone inner
          · rw [expandFrom_below wild alone, List.mem_flatMap]
            constructor
            · rintro ⟨directory, leads, member⟩
              obtain ⟨name, inside, rfl⟩ := List.mem_map.mp member
              split at leads
              · rename_i again
                split at leads
                · rename_i shorter
                  exact .inMatch wild alone again shorter ((ih _ shorter rfl).mp leads) inside
                · cases leads
              · rename_i plain
                rw [List.mem_singleton] at leads
                subst leads
                exact .inLiteral wild alone ((Bool.not_eq_true _).mp plain) inside
            · intro matched
              cases matched with
              | literal plain => exact absurd (wild.symm.trans plain) (by decide)
              | top _ empty => exact absurd empty alone
              | @inLiteral _ _ name _ _ plain member =>
                  refine ⟨_, ?_, List.mem_map.mpr ⟨name, member, rfl⟩⟩
                  rw [plain, if_neg (by decide)]
                  exact List.mem_singleton.mpr rfl
              | @inMatch _ _ directory name _ _ again shorter matched member =>
                  refine ⟨directory, ?_, List.mem_map.mpr ⟨name, member, rfl⟩⟩
                  rw [again, if_pos rfl, if_pos shorter]
                  exact (ih _ shorter rfl).mpr matched

/-! ### Trees that gain files -/

/-- Whether some components lead to a directory. -/
def LeadsIn (tree : FileTree) (components : List String) : Prop :=
  ∃ place, tree.walkFrom [] components = .ok place ∧ tree.isDirectory place = true

theorem LeadsIn.front {tree : FileTree} {first rest : List String} (leads : LeadsIn tree (first ++ rest)) :
    LeadsIn tree first := by
  obtain ⟨place, walked, directory⟩ := leads
  obtain ⟨middle, walkedFirst, _⟩ := FileTree.walkFrom_append walked
  exact ⟨middle, walkedFirst, FileTree.isDirectory_of_walkFrom walked directory walkedFirst⟩

theorem exists_iff {tree : FileTree} {path : String} :
    tree.exists? path = true ↔ ∃ place, tree.walk path = .ok place ∧ (tree.get? place).isSome := by
  unfold FileTree.exists? FileTree.found
  constructor
  · intro there
    split at there
    · rename_i place walked
      exact ⟨place, walked, there⟩
    · cases there
  · rintro ⟨place, walked, there⟩
    rw [walked]
    exact there

theorem mem_matchingNames {tree : FileTree} {inside name : String} {component : List Char} {only : Bool} :
    name ∈ matchingNames tree inside component only ↔ ∃ place, tree.walk inside = .ok place
      ∧ (tree.get? (place ++ [name])).isSome
      ∧ (only = true → tree.isDirectory (place ++ [name]) = true)
      ∧ (isHidden component || !isHidden name.toList) = true
      ∧ admitsAll (items component) name.toList = true := by
  unfold matchingNames
  cases walked : tree.walk inside with
  | error _ => exact ⟨nofun, fun ⟨_, there, _⟩ => nomatch there⟩
  | ok place =>
      simp only [List.mem_filter, FileTree.mem_names, Bool.and_eq_true, Except.ok.injEq,
        exists_eq_left']
      refine and_congr_right fun _ => ?_
      rw [and_assoc]
      refine and_congr_left fun _ => ?_
      cases only with
      | false => exact ⟨fun _ => nofun, fun _ => rfl⟩
      | true => exact ⟨fun directory _ => directory, fun directory => directory rfl⟩

section

variable {own : Place → Prop} {before after : FileTree} (gains : FileTree.Gains own before after)

include gains

theorem isSome_gains {place : Place} (there : (before.get? place).isSome) : (after.get? place).isSome := by
  obtain ⟨entry, found⟩ := Option.isSome_iff_exists.mp there
  obtain ⟨later, foundLater, _⟩ := gains.keeps place entry found
  rw [foundLater]
  rfl

theorem exists_gains {path : String} (there : before.exists? path = true) :
    after.exists? path = true := by
  obtain ⟨place, walked, present⟩ := exists_iff.mp there
  exact exists_iff.mpr ⟨place, gains.keeps.walk walked, isSome_gains gains present⟩

theorem matchingNames_gains {inside name : String} {component : List Char} {only : Bool}
    (member : name ∈ matchingNames before inside component only) :
    name ∈ matchingNames after inside component only := by
  obtain ⟨place, walked, there, directory, rest⟩ := mem_matchingNames.mp member
  refine mem_matchingNames.mpr ⟨place, gains.keeps.walk walked, isSome_gains gains there, ?_, rest⟩
  rw [gains.isDirectory]
  exact directory

theorem lastNames_gains {inside name : String} {last : List Char} {only : Bool}
    (member : name ∈ lastNames before inside last only) : name ∈ lastNames after inside last only := by
  unfold lastNames literalName at member ⊢
  split
  · rename_i wild
    rw [if_pos wild] at member
    exact matchingNames_gains gains member
  · rename_i plain
    rw [if_neg plain] at member
    rw [gains.isDirectoryPath]
    split
    · rename_i empty
      rw [if_pos empty] at member
      exact member
    · rename_i filled
      rw [if_neg filled] at member
      split at member
      · rename_i there
        rw [if_pos (exists_gains gains there)]
        exact member
      · cases member

/-- What a pattern matches it goes on to match. -/
theorem matches_gains {root path : String} {pattern : List Char} {only : Bool}
    (matched : Matches before root pattern only path) : Matches after root pattern only path := by
  induction matched with
  | literal plain there =>
      refine .literal plain ?_
      unfold isThere at there ⊢
      rw [gains.isDirectoryPath]
      split
      · rename_i empty
        rw [if_pos empty] at there
        exact there
      · rename_i filled
        rw [if_neg filled] at there
        exact exists_gains gains there
  | top wild alone member => exact .top wild alone (matchingNames_gains gains member)
  | inLiteral wild inner plain member => exact .inLiteral wild inner plain (lastNames_gains gains member)
  | inMatch wild inner again shorter _ member ih =>
      exact .inMatch wild inner again shorter ih (lastNames_gains gains member)

theorem exists_of_gains {path : String} (there : after.exists? path = true)
    (leads : LeadsIn after (parts path)) : before.exists? path = true := by
  obtain ⟨place, walked, _⟩ := exists_iff.mp there
  obtain ⟨other, walkedParts, directory⟩ := leads
  rw [(FileTree.walk_eq_ok.mp walked).2.2] at walkedParts
  cases walkedParts
  have directoryBefore := gains.isDirectory place ▸ directory
  refine exists_iff.mpr ⟨place, gains.walk walked directory, ?_⟩
  rw [eq_of_beq directoryBefore]
  rfl

variable (proper : before.IsProper) (named : ∀ place name, own (place ++ [name]) → IsName name)

include proper named

/-- A name that is in a directory is a name. -/
theorem isName_gains {place : Place} {name : String} (there : (after.get? (place ++ [name])).isSome) :
    IsName name := by
  rcases gains (place ++ [name]) with same | ⟨mine, _⟩
  · rw [same] at there
    exact proper.isName there
  · exact named place name mine

/-- A directory has the name that a directory had before. -/
theorem matchingNames_of_gains {inside name : String} {component : List Char} {only : Bool}
    (member : name ∈ matchingNames after inside component only)
    (leads : LeadsIn after (parts inside ++ parts name)) :
    name ∈ matchingNames before inside component only := by
  obtain ⟨place, walked, there, _, rest⟩ := mem_matchingNames.mp member
  have isName := isName_gains gains proper named there
  rw [parts_of_isComponent isName.component] at leads
  obtain ⟨below, walkedName, isDirectory⟩ := leads
  obtain ⟨middle, walkedInside, walkedLast⟩ := FileTree.walkFrom_append walkedName
  rw [(FileTree.walk_eq_ok.mp walked).2.2] at walkedInside
  cases walkedInside
  obtain ⟨entered, _, rfl⟩ := FileTree.walkFrom_name isName.notParent walkedLast
  rw [gains.isDirectory] at isDirectory
  refine mem_matchingNames.mpr ⟨place, gains.walk walked entered, ?_, fun _ => isDirectory, rest⟩
  rw [eq_of_beq isDirectory]
  rfl

theorem lastNames_of_gains {inside name : String} {last : List Char} {only : Bool}
    (member : name ∈ lastNames after inside last only) (oneName : '/' ∉ last) :
    isAbsolute name = false
      ∧ (LeadsIn after (parts inside ++ parts name) → name ∈ lastNames before inside last only) := by
  unfold lastNames literalName at member ⊢
  split at member
  · rename_i wild
    rw [if_pos wild]
    obtain ⟨place, _, there, _⟩ := mem_matchingNames.mp member
    have isName := isName_gains gains proper named there
    exact ⟨isAbsolute_of_noSlash isName.component.oneName,
      matchingNames_of_gains gains proper named member⟩
  · rename_i plain
    rw [if_neg plain]
    have relative : isAbsolute (String.ofList last) = false :=
      isAbsolute_of_noSlash (by rwa [String.toList_ofList])
    split at member
    · rename_i empty
      rw [if_pos empty]
      split at member
      · rename_i there
        rw [gains.isDirectoryPath] at there
        rw [List.mem_singleton.mp member, if_pos there]
        exact ⟨rfl, fun _ => List.mem_singleton.mpr rfl⟩
      · cases member
    · rename_i filled
      rw [if_neg filled]
      split at member
      · rename_i there
        rw [List.mem_singleton.mp member]
        refine ⟨relative, fun leads => ?_⟩
        rw [← parts_join relative] at leads
        rw [if_pos (exists_of_gains gains there leads)]
        exact List.mem_singleton.mpr rfl
      · cases member

/-- What a pattern matches and is a directory it matched before. -/
theorem matches_of_gains {root path : String} {pattern : List Char} {only : Bool}
    (matched : Matches after root pattern only path) (leads : LeadsIn after (rooted root path)) :
    Matches before root pattern only path := by
  have last (pattern : List Char) : '/' ∉ (splitLast pattern).2 := fun member =>
    absurd (List.all_eq_true.mp List.all_takeWhile '/' (List.mem_reverse.mp member)) (by decide)
  induction matched with
  | literal plain there =>
      refine .literal plain ?_
      unfold isThere at there ⊢
      split
      · rename_i empty
        rw [if_pos empty, gains.isDirectoryPath] at there
        exact there
      · rename_i filled
        rw [if_neg filled] at there
        rw [← parts_join_root] at leads
        exact exists_of_gains gains there leads
  | top wild alone member =>
      obtain ⟨place, _, there, _⟩ := mem_matchingNames.mp member
      have relative := isAbsolute_of_noSlash
        (isName_gains gains proper named there).component.oneName
      rw [rooted, relative, if_neg (by decide)] at leads
      exact .top wild alone (matchingNames_of_gains gains proper named member leads)
  | inLiteral wild inner plain member =>
      obtain ⟨relative, matched⟩ := lastNames_of_gains gains proper named member (last _)
      rw [rooted_join _ relative, ← parts_fromRoot] at leads
      exact .inLiteral wild inner plain (matched leads)
  | inMatch wild inner again shorter _ member ih =>
      obtain ⟨relative, matched⟩ := lastNames_of_gains gains proper named member (last _)
      rw [rooted_join _ relative] at leads
      have front := ih leads.front
      rw [← parts_fromRoot] at leads
      exact .inMatch wild inner again shorter front (matched leads)

end

end Glob
end RefSync
