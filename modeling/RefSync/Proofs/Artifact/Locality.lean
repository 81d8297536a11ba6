/-
Which files are a workspace's own. The names in an artifact lead from the artifact's directory, so
a file of the workspace is at most one level up, and installed packages are in `node_modules` there.
The test on names is a search for texts; among the components of a name it is a search for neighbours.
-/

import RefSync.Artifact
import RefSync.Proofs.Workspace.Documents
import RefSync.Proofs.Workspace.Plain

namespace RefSync

open Path

/-! ### Occurrences -/

namespace Artifact

theorem occursIn_iff {text chars : List Char} : occursIn text chars = true ↔ text <:+: chars := by
  induction chars with
  | nil => rw [occursIn, List.isEmpty_iff, List.infix_nil]
  | cons char rest ih =>
      rw [occursIn, Bool.or_eq_true, ih, List.isPrefixOf_iff_prefix, List.infix_cons_iff]

/-- The first slash of a text and of what it starts are the same one. -/
theorem prefix_slash_iff {left right first rest : List Char} (leftPlain : '/' ∉ left)
    (firstPlain : '/' ∉ first) :
    left ++ '/' :: right <+: first ++ '/' :: rest ↔ left = first ∧ right <+: rest := by
  induction left generalizing first with
  | nil =>
      cases first with
      | nil => simp
      | cons char others =>
          rw [List.mem_cons, not_or] at firstPlain
          simp [firstPlain.1]
  | cons char others ih =>
      rw [List.mem_cons, not_or] at leftPlain
      cases first with
      | nil => simp [Ne.symm leftPlain.1]
      | cons other more =>
          rw [List.mem_cons, not_or] at firstPlain
          rw [List.cons_append, List.cons_append, List.cons_prefix_cons, ih leftPlain.2 firstPlain.2,
            List.cons.injEq, and_assoc]

/-- A text with a slash starts in the first piece of a path, where its slash is the one that ends the
piece, or behind that slash. -/
theorem infix_slash_iff {left right first rest : List Char} (leftPlain : '/' ∉ left)
    (firstPlain : '/' ∉ first) :
    left ++ '/' :: right <:+: first ++ '/' :: rest
      ↔ left <:+ first ∧ right <+: rest ∨ left ++ '/' :: right <:+: rest := by
  induction first with
  | nil =>
      rw [List.nil_append, List.infix_cons_iff, List.suffix_nil]
      exact or_congr_left (prefix_slash_iff leftPlain List.not_mem_nil)
  | cons char others ih =>
      have start : left ++ '/' :: right <+: char :: (others ++ '/' :: rest)
          ↔ left = char :: others ∧ right <+: rest := prefix_slash_iff leftPlain firstPlain
      rw [List.mem_cons, not_or] at firstPlain
      rw [List.cons_append, List.infix_cons_iff, start, ih firstPlain.2, List.suffix_cons_iff, ← or_assoc,
        or_and_right]

/-- A text without a slash starts a path where it starts its first piece. -/
theorem plain_prefix_iff {text first rest : List Char} (plain : '/' ∉ text) :
    text <+: first ++ '/' :: rest ↔ text <+: first := by
  induction text generalizing first with
  | nil => exact iff_of_true List.nil_prefix List.nil_prefix
  | cons char others ih =>
      rw [List.mem_cons, not_or] at plain
      cases first with
      | nil => simp [Ne.symm plain.1]
      | cons other more => rw [List.cons_append, List.cons_prefix_cons, List.cons_prefix_cons, ih plain.2]

theorem toList_joinParts_cons_cons (first second : String) (rest : List String) :
    (joinParts (first :: second :: rest)).toList
      = first.toList ++ '/' :: (joinParts (second :: rest)).toList := by
  rw [joinParts_cons_cons, String.toList_append, String.toList_append, List.append_assoc]
  rfl

section

variable {components : List String} (proper : ∀ part ∈ components, IsComponent part)

include proper

/-- A text with a slash occurs in a path where a component ends with what is before the slash and
the path goes on with what is after it. -/
theorem occursIn_joinParts_iff {left right : List Char} (plain : '/' ∉ left) :
    occursIn (left ++ '/' :: right) (joinParts components).toList = true
      ↔ ∃ part next after, part :: next :: after <:+ components
        ∧ left <:+ part.toList ∧ right <+: (joinParts (next :: after)).toList := by
  rw [occursIn_iff]
  induction components with
  | nil =>
      simp [joinParts]
  | cons first rest ih =>
      have firstProper := proper first List.mem_cons_self
      cases rest with
      | nil =>
          rw [joinParts_singleton]
          constructor
          · intro occurs
            exact absurd (occurs.subset (by simp)) firstProper.oneName
          · rintro ⟨part, next, after, ends, -⟩
            exact absurd ends.length_le (by simp)
      | cons second others =>
          rw [toList_joinParts_cons_cons, infix_slash_iff plain firstProper.oneName,
            ih fun part member => proper part (List.mem_cons_of_mem _ member)]
          constructor
          · rintro (⟨ends, starts⟩ | ⟨part, next, after, within, ends, starts⟩)
            · exact ⟨first, second, others, List.suffix_refl _, ends, starts⟩
            · exact ⟨part, next, after, within.trans (List.suffix_cons _ _), ends, starts⟩
          · rintro ⟨part, next, after, within, ends, starts⟩
            rcases List.suffix_cons_iff.mp within with same | later
            · cases same
              exact Or.inl ⟨ends, starts⟩
            · exact Or.inr ⟨part, next, after, later, ends, starts⟩

end

theorem prefix_joinParts_iff {text : List Char} (plain : '/' ∉ text) (first : String)
    (rest : List String) : text <+: (joinParts (first :: rest)).toList ↔ text <+: first.toList := by
  cases rest with
  | nil =>
      rw [joinParts_singleton]
  | cons second others => rw [toList_joinParts_cons_cons, plain_prefix_iff plain]

theorem up_prefix_joinParts_iff {first : String} (proper : IsComponent first) (rest : List String) :
    ['.', '.', '/'] <+: (joinParts (first :: rest)).toList ↔ first = ".." ∧ rest ≠ [] := by
  cases rest with
  | nil =>
      rw [joinParts_singleton]
      constructor
      · intro starts
        exact absurd (starts.subset (by simp)) proper.oneName
      · rintro ⟨-, some⟩
        exact absurd rfl some
  | cons second others =>
      have up : ['.', '.', '/'] = "..".toList ++ '/' :: [] := rfl
      rw [toList_joinParts_cons_cons, up, prefix_slash_iff (by decide) proper.oneName, String.toList_inj]
      simp only [List.nil_prefix, and_true, ne_eq, reduceCtorEq, not_false_eq_true, eq_comm]

/-! ### Names as the compiler writes them -/

/-- The way to a file: some levels up, then down. -/
def way (ups : Nat) (components : List String) : List String :=
  List.replicate ups ".." ++ components

@[simp]
theorem way_zero (components : List String) : way 0 components = components := rfl

@[simp]
theorem way_succ (ups : Nat) (components : List String) :
    way (ups + 1) components = ".." :: way ups components := rfl

/-- Behind one level up there is the way down. -/
theorem mem_of_second {ups : Nat} {components after : List String} {part next : String} (few : ups ≤ 1)
    (within : part :: next :: after <:+ way ups components) : next ∈ components := by
  have second : next ∈ part :: next :: after := List.mem_cons_of_mem _ List.mem_cons_self
  rcases Nat.le_one_iff_eq_zero_or_eq_one.mp few with rfl | rfl
  · exact within.subset second
  · rcases List.suffix_cons_iff.mp within with same | later
    · cases same
      exact List.mem_cons_self
    · exact later.subset second

/-- Whether one component comes right before another one. -/
def Adjacent (components : List String) (part next : String) : Prop :=
  ∃ after, part :: next :: after <:+ components

/-- Whether `../node_modules` is read where one component ends and another one begins. -/
structure ReadsInstalled (part next : String) : Prop where
  ends : "..".toList <:+ part.toList
  begins : "node_modules".toList <+: next.toList

section

variable {ups : Nat} {components : List String} (named : ∀ part ∈ components, IsName part)

include named

theorem isComponent_way : ∀ part ∈ way ups components, IsComponent part := by
  intro part member
  rcases List.mem_append.mp member with up | down
  · rw [List.eq_of_mem_replicate up]
    exact ⟨by decide, by decide, by decide⟩
  · exact (named part down).component

/-- Two levels up are seen where a second `..` comes. -/
theorem occursIn_two_up (some : components ≠ []) :
    occursIn "../../".toList (joinParts (way ups components)).toList = true ↔ 2 ≤ ups := by
  have spelled : "../../".toList = "..".toList ++ '/' :: ['.', '.', '/'] := rfl
  have proper : ∀ part ∈ way ups components, IsComponent part := isComponent_way named
  rw [spelled, occursIn_joinParts_iff proper (by decide)]
  constructor
  · rintro ⟨part, next, after, within, -, starts⟩
    have inside : next ∈ way ups components := within.subset (by simp)
    obtain ⟨rfl, -⟩ := (up_prefix_joinParts_iff (proper next inside) after).mp starts
    by_contra few
    exact (named ".." (mem_of_second (by omega) within)).notParent rfl
  · intro enough
    obtain ⟨more, rfl⟩ := Nat.exists_eq_add_of_le' enough
    refine ⟨"..", "..", way more components, List.suffix_refl _, List.suffix_refl _, ?_⟩
    refine (up_prefix_joinParts_iff ⟨by decide, by decide, by decide⟩ _).mpr ⟨rfl, ?_⟩
    exact List.append_ne_nil_of_right_ne_nil _ some

/-- The test on a name is that the file is one level up at most and that nowhere on the way is the
text of the installed packages. -/
theorem isLocal_way (some : components ≠ []) :
    isLocal (joinParts (way ups components)) = true
      ↔ ups ≤ 1 ∧ ∀ part next, Adjacent (way ups components) part next → ¬ReadsInstalled part next := by
  have installed : occursIn "../node_modules".toList (joinParts (way ups components)).toList = true
      ↔ ∃ part next, Adjacent (way ups components) part next ∧ ReadsInstalled part next := by
    have spelled : "../node_modules".toList = "..".toList ++ '/' :: "node_modules".toList := rfl
    rw [spelled, occursIn_joinParts_iff (isComponent_way named) (by decide)]
    simp only [prefix_joinParts_iff (show '/' ∉ "node_modules".toList by decide)]
    constructor
    · rintro ⟨part, next, after, within, ends, begins⟩
      exact ⟨part, next, ⟨after, within⟩, ends, begins⟩
    · rintro ⟨part, next, ⟨after, within⟩, ends, begins⟩
      exact ⟨part, next, after, within, ends, begins⟩
  rw [isLocal, Bool.and_eq_true, Bool.not_eq_true', Bool.not_eq_true', ← Bool.not_eq_true,
    ← Bool.not_eq_true, occursIn_two_up named some, installed, Nat.not_le, Nat.lt_succ_iff]
  simp only [not_exists, not_and]

end

/-! ### Where the names lead -/

open Workspace

/-- The first component of a file below a workspace. -/
def firstBelow (workspace file : String) : Option String :=
  ((parts file).drop (parts workspace).length).head?

/-- Whether the file that an artifact means by a name is one of the artifact's workspace, and not one
of an installed package. -/
structure IsOwnSource (project : Project) (workspace name : String) : Prop where
  owned : owns workspace (project.artifactFile (artifactPath workspace) name) = true
  written : firstBelow workspace (project.artifactFile (artifactPath workspace) name)
    ≠ some "node_modules"

/-- What a way leads to, below the workspace. -/
def below (ups : Nat) (components : List String) : List String :=
  match ups with
  | 0 => Config.artifactDirectory :: components
  | _ => components

theorem isComponent_below {ups : Nat} {components : List String}
    (named : ∀ part ∈ components, IsName part) : ∀ part ∈ below ups components, IsComponent part := by
  intro part member
  cases ups with
  | zero =>
      rcases List.mem_cons.mp member with rfl | later
      · exact isName_artifactDirectory.component
      · exact (named part later).component
  | succ ups => exact (named part member).component

/-- One level up at most from its artifact's directory one stays in a workspace. -/
theorem resolve_way {ups : Nat} {components front : List String} (few : ups ≤ 1)
    (down : ".." ∉ components) :
    resolve true (front ++ [Config.artifactDirectory] ++ way ups components)
      = resolve true front ++ below ups components := by
  have directoryNamed : Config.artifactDirectory ≠ ".." := by decide
  rcases Nat.le_one_iff_eq_zero_or_eq_one.mp few with rfl | rfl
  · rw [way_zero, resolve_append_names _ down, resolve_append_name _ directoryNamed, List.append_assoc]
    rfl
  · rw [way_succ, way_zero, List.append_cons, resolve_append_names _ down, resolve_append_up,
      resolve_append_name _ directoryNamed, List.dropLast_concat]
    rfl

section

variable {project : Project} {workspace : String} {ups : Nat} {components : List String}
  (rooted : isAbsolute project.root = true) (inside : IsBelowRoot workspace)
  (named : ∀ part ∈ components, IsName part)

include rooted inside named

/-- The components of a file at most one level up are the workspace's and what is below it. -/
theorem parts_artifactFile (few : ups ≤ 1) :
    parts (project.artifactFile (artifactPath workspace) (joinParts (way ups components)))
      = parts workspace ++ below ups components := by
  have down : ".." ∉ components := fun member => (named ".." member).notParent rfl
  rw [artifactFile_eq rooted inside (isAbsolute_joinParts (isComponent_way named)),
    parts_joinParts (isComponent_way named), resolve_way few down, resolve_append_names _ inside.down,
    ← project.resolved_root, List.append_assoc, project.fromRoot_append]
  refine parts_ofParts fun part member => ?_
  rcases List.mem_append.mp member with own | further
  · exact isComponent_of_mem_parts own
  · exact isComponent_below named part further

theorem isOwnSource_way (few : ups ≤ 1) :
    IsOwnSource project workspace (joinParts (way ups components))
      ↔ (below ups components).head? ≠ some "node_modules" := by
  have file := parts_artifactFile rooted inside named few
  have first : firstBelow workspace (project.artifactFile (artifactPath workspace)
      (joinParts (way ups components))) = (below ups components).head? := by
    rw [firstBelow, file, List.drop_left]
  rw [← first]
  constructor
  · exact IsOwnSource.written
  · intro written
    have spelled : IsSpelled (project.artifactFile (artifactPath workspace)
        (joinParts (way ups components))) := project.relative_spelled _
    refine ⟨(owns_iff inside.path spelled).mpr ?_, written⟩
    rw [file]
    exact List.prefix_append _ _

/-- A name that passes the test is one level up at most, and means a file of the workspace that is not
one of an installed package. So does every such name pass where nothing but `..` and `node_modules`
themselves reads like the way to the installed packages. -/
theorem isLocal_agrees_with_ownership (some : components ≠ []) :
    (isLocal (joinParts (way ups components)) = true →
        ups ≤ 1 ∧ IsOwnSource project workspace (joinParts (way ups components)))
      ∧ ((∀ part next, Adjacent (way ups components) part next → ReadsInstalled part next →
          part = ".." ∧ next = "node_modules") →
        ups ≤ 1 ∧ IsOwnSource project workspace (joinParts (way ups components)) →
          isLocal (joinParts (way ups components)) = true) := by
  rw [isLocal_way named some]
  constructor
  · rintro ⟨few, unread⟩
    refine ⟨few, (isOwnSource_way rooted inside named few).mpr fun installed => ?_⟩
    rcases Nat.le_one_iff_eq_zero_or_eq_one.mp few with rfl | rfl
    · exact absurd (Option.some.inj installed) (by decide)
    · obtain ⟨rest, rfl⟩ := List.head?_eq_some_iff.mp installed
      exact unread ".." "node_modules" ⟨rest, List.suffix_refl _⟩ ⟨List.suffix_refl _, List.prefix_refl _⟩
  · rintro plain ⟨few, own⟩
    have written := (isOwnSource_way rooted inside named few).mp own
    refine ⟨few, fun part next adjacent reads => ?_⟩
    obtain ⟨rfl, rfl⟩ := plain part next adjacent reads
    obtain ⟨after, within⟩ := adjacent
    have notBelow : ¬".." :: "node_modules" :: after <:+ components := fun later =>
      (named ".." (later.subset List.mem_cons_self)).notParent rfl
    rcases Nat.le_one_iff_eq_zero_or_eq_one.mp few with rfl | rfl
    · exact notBelow within
    · rcases List.suffix_cons_iff.mp within with same | later
      · cases same
        exact written rfl
      · exact notBelow later

end

theorem isBelowRoot_a : IsBelowRoot "packages/a" :=
  ⟨⟨⟨by decide +kernel, by decide +kernel⟩, by decide⟩, by decide +kernel⟩

/-- A directory of the workspace's own that is called `node_modules` is no installed package. -/
theorem nested_directory_is_own :
    isAbsolute "/repo" = true ∧ IsBelowRoot "packages/a"
      ∧ (∀ part ∈ ["src", "node_modules", "index.ts"], IsName part)
      ∧ ["src", "node_modules", "index.ts"] ≠ []
      ∧ (∀ part next, Adjacent (way 1 ["src", "node_modules", "index.ts"]) part next →
        ReadsInstalled part next → part = ".." ∧ next = "node_modules")
      ∧ IsOwnSource ⟨"/repo"⟩ "packages/a" "../src/node_modules/index.ts"
      ∧ isLocal "../src/node_modules/index.ts" = true := by
  have named : ∀ part ∈ ["src", "node_modules", "index.ts"], IsName part := by decide
  have plain : ∀ part next, Adjacent (way 1 ["src", "node_modules", "index.ts"]) part next →
      ReadsInstalled part next → part = ".." ∧ next = "node_modules" := by
    rintro part next ⟨after, within⟩ ⟨ends, begins⟩
    simp only [way_succ, way_zero, List.suffix_cons_iff, List.cons.injEq, List.suffix_nil,
      reduceCtorEq, and_false, or_false] at within
    rcases within with ⟨rfl, rfl, -⟩ | ⟨rfl, rfl, -⟩ | ⟨rfl, rfl, -⟩
    · exact absurd begins (by decide)
    · exact absurd ends (by decide)
    · exact absurd ends (by decide)
  have spelled :
      joinParts (way 1 ["src", "node_modules", "index.ts"]) = "../src/node_modules/index.ts" := by
    decide
  have own : IsOwnSource ⟨"/repo"⟩ "packages/a" "../src/node_modules/index.ts" :=
    ⟨by decide +kernel, by decide +kernel⟩
  have agrees := @isLocal_agrees_with_ownership ⟨"/repo"⟩ "packages/a" 1 _ (by decide) isBelowRoot_a
    named (by decide)
  rw [spelled] at agrees
  exact ⟨by decide, isBelowRoot_a, named, by decide, plain, own, agrees.2 plain ⟨Nat.le_refl 1, own⟩⟩

/-- A way that leads two levels up, and back into the workspace, counts as one to another workspace. -/
theorem way_back_is_elsewhere :
    isAbsolute "/repo" = true ∧ IsBelowRoot "packages/a" ∧ (∀ part ∈ ["a", "index.ts"], IsName part)
      ∧ ["a", "index.ts"] ≠ [] ∧ joinParts (way 2 ["a", "index.ts"]) = "../../a/index.ts"
      ∧ ¬(isLocal "../../a/index.ts" = true ↔ IsOwnSource ⟨"/repo"⟩ "packages/a" "../../a/index.ts") := by
  have own : IsOwnSource ⟨"/repo"⟩ "packages/a" "../../a/index.ts" :=
    ⟨by decide +kernel, by decide +kernel⟩
  have elsewhere : isLocal "../../a/index.ts" = false := by decide +kernel
  refine ⟨by decide, isBelowRoot_a, by decide, by decide, by decide, fun agrees => ?_⟩
  rw [agrees.mpr own] at elsewhere
  cases elsewhere

end Artifact
end RefSync
