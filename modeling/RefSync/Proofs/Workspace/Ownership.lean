/-
Which workspace a file belongs to. The test on texts, equality or a prefix that ends with
a slash, is the test on components: the workspace's components are the first ones of the
file's. So of two owners of one file one leads to the other, and the longest is unique.
-/

import RefSync.Proofs.Path.Components
import RefSync.Workspace

namespace RefSync

open Path

/-- A workspace below the root, or beside it, in its shortest form. -/
structure IsWorkspacePath (workspace : String) : Prop where
  normal : IsNormal workspace
  notRoot : workspace ≠ "."

/-- A workspace strictly below the root, in its shortest form. -/
structure IsBelowRoot (workspace : String) : Prop where
  path : IsWorkspacePath workspace
  down : ".." ∉ parts workspace

instance (workspace : String) : Decidable (IsWorkspacePath workspace) :=
  decidable_of_iff (isAbsolute workspace = false ∧ normalize workspace = workspace ∧ workspace ≠ ".")
    ⟨fun ⟨relative, shortest, notRoot⟩ => ⟨⟨relative, shortest⟩, notRoot⟩,
      fun ⟨⟨relative, shortest⟩, notRoot⟩ => ⟨relative, shortest, notRoot⟩⟩

instance (workspace : String) : Decidable (IsBelowRoot workspace) :=
  decidable_of_iff (IsWorkspacePath workspace ∧ ".." ∉ parts workspace)
    ⟨fun ⟨path, down⟩ => ⟨path, down⟩, fun ⟨path, down⟩ => ⟨path, down⟩⟩

namespace Workspace

/-- The longest of some workspaces that is a file or leads to it, component by component. -/
structure MostSpecific (workspaces : List String) (file workspace : String) : Prop where
  member : workspace ∈ workspaces
  leads : parts workspace <+: parts file
  longest : ∀ other ∈ workspaces, parts other <+: parts file →
    (parts other).length ≤ (parts workspace).length

theorem MostSpecific.unique {workspaces : List String} {file first second : String}
    (paths : ∀ workspace ∈ workspaces, IsWorkspacePath workspace)
    (one : MostSpecific workspaces file first) (other : MostSpecific workspaces file second) :
    first = second := by
  have firstLonger := one.longest second other.member other.leads
  have secondLonger := other.longest first one.member one.leads
  have same : parts first = parts second :=
    (List.prefix_of_prefix_length_le one.leads other.leads (by omega)).eq_of_length (by omega)
  exact (paths first one.member).normal.spelled.injective
    (paths second other.member).normal.spelled same

theorem dropSlashes_eq {workspace : String} (path : IsWorkspacePath workspace) :
    dropSlashes workspace = workspace := by
  have last := path.normal.spelled.stem.noSlash
  rw [← List.head?_reverse] at last
  unfold dropSlashes
  cases reversed : workspace.toList.reverse with
  | nil =>
      rw [List.dropWhile_nil, List.reverse_nil, ← List.reverse_eq_nil_iff.mp reversed,
        String.ofList_toList]
  | cons char rest =>
      rw [reversed, List.head?_cons] at last
      have other : (char == '/') = false := beq_false_of_ne fun same => last (congrArg some same)
      rw [List.dropWhile_cons_of_neg (by simp [other]), ← reversed, List.reverse_reverse,
        String.ofList_toList]

/-- A workspace owns the texts that are its own or go on with a slash. -/
theorem owns_eq_true_iff {workspace : String} (path : IsWorkspacePath workspace) (file : String) :
    owns workspace file = true ↔ file = workspace ∨ ∃ rest, file = workspace ++ "/" ++ rest := by
  rw [owns, dropSlashes_eq path, Bool.or_eq_true, beq_iff_eq, String.startsWith_string_iff]
  constructor
  · rintro (same | ⟨rest, continued⟩)
    · exact Or.inl same
    · refine Or.inr ⟨String.ofList rest, String.toList_inj.mp ?_⟩
      rw [String.toList_append, String.toList_ofList, continued]
  · rintro (same | ⟨rest, rfl⟩)
    · exact Or.inl same
    · refine Or.inr ⟨rest.toList, ?_⟩
      rw [String.toList_append (s := workspace ++ "/")]

theorem owns_iff {workspace file : String} (path : IsWorkspacePath workspace)
    (spelled : IsSpelled file) :
    owns workspace file = true ↔ parts workspace <+: parts file := by
  have proper : ∀ part ∈ parts file, IsComponent part :=
    fun _ member => isComponent_of_mem_parts member
  rw [owns_eq_true_iff path]
  constructor
  · rintro (rfl | ⟨rest, rfl⟩)
    · exact List.prefix_refl _
    · rw [parts_slash]
      exact List.prefix_append _ _
  · rintro ⟨rest, split⟩
    obtain ⟨some, joined⟩ := path.normal.spelled.eq_joinParts path.notRoot
    cases rest with
    | nil =>
        rw [List.append_nil] at split
        exact Or.inl (spelled.injective path.normal.spelled split.symm)
    | cons next others =>
        refine Or.inr ⟨joinParts (next :: others), ?_⟩
        calc
          file = ofParts (parts file) := spelled.symm
          _ = joinParts (parts file) := ofParts_eq_joinParts proper (by simp [← split])
          _ = joinParts (parts workspace) ++ "/" ++ joinParts (next :: others) := by
            rw [← split, joinParts_append some (List.cons_ne_nil next others)]
          _ = workspace ++ "/" ++ joinParts (next :: others) := by rw [← joined]

/-! ### The longest owner -/

private theorem foldl_longer_some (workspaces : List String) (best : String) :
    ∃ chosen, workspaces.foldl longer (some best) = some chosen ∧
      (chosen = best ∨ chosen ∈ workspaces) ∧ best.length ≤ chosen.length ∧
      ∀ other ∈ workspaces, other.length ≤ chosen.length := by
  induction workspaces generalizing best with
  | nil => exact ⟨best, rfl, Or.inl rfl, Nat.le_refl _, fun _ impossible => by cases impossible⟩
  | cons head rest ih =>
      by_cases longerHead : best.length < head.length
      · obtain ⟨chosen, folded, origin, notShorter, bound⟩ := ih head
        refine ⟨chosen, ?_, ?_, by omega, ?_⟩
        · rw [List.foldl_cons, longer, if_pos longerHead]
          exact folded
        · rcases origin with rfl | later
          · exact Or.inr List.mem_cons_self
          · exact Or.inr (List.mem_cons_of_mem _ later)
        · intro other member
          rcases List.mem_cons.mp member with rfl | later
          · exact notShorter
          · exact bound other later
      · obtain ⟨chosen, folded, origin, notShorter, bound⟩ := ih best
        refine ⟨chosen, ?_, ?_, notShorter, ?_⟩
        · rw [List.foldl_cons, longer, if_neg longerHead]
          exact folded
        · rcases origin with rfl | later
          · exact Or.inl rfl
          · exact Or.inr (List.mem_cons_of_mem _ later)
        · intro other member
          rcases List.mem_cons.mp member with rfl | later
          · omega
          · exact bound other later

private theorem foldl_longer (workspaces : List String) (some : workspaces ≠ []) :
    ∃ chosen, workspaces.foldl longer none = Option.some chosen ∧ chosen ∈ workspaces ∧
      ∀ other ∈ workspaces, other.length ≤ chosen.length := by
  cases workspaces with
  | nil => exact absurd rfl some
  | cons head rest =>
      obtain ⟨chosen, folded, origin, notShorter, bound⟩ := foldl_longer_some rest head
      refine ⟨chosen, folded, ?_, ?_⟩
      · rcases origin with rfl | later
        · exact List.mem_cons_self
        · exact List.mem_cons_of_mem _ later
      · intro other member
        rcases List.mem_cons.mp member with rfl | later
        · exact notShorter
        · exact bound other later

/-- A path that leads on to another one is the shorter text. -/
private theorem length_lt_of_leads {short long : String} (shortPath : IsWorkspacePath short)
    (longPath : IsWorkspacePath long) (leads : parts short <+: parts long)
    (different : parts short ≠ parts long) : short.length < long.length := by
  obtain ⟨rest, split⟩ := leads
  obtain ⟨shortSome, shortJoined⟩ := shortPath.normal.spelled.eq_joinParts shortPath.notRoot
  obtain ⟨_, longJoined⟩ := longPath.normal.spelled.eq_joinParts longPath.notRoot
  have restSome : rest ≠ [] := by
    intro none
    rw [none, List.append_nil] at split
    exact different split
  have spelled : long = short ++ "/" ++ joinParts rest := by
    calc
      long = joinParts (parts short ++ rest) := by rw [split]; exact longJoined
      _ = joinParts (parts short) ++ "/" ++ joinParts rest := joinParts_append shortSome restSome
      _ = short ++ "/" ++ joinParts rest := by rw [← shortJoined]
  rw [spelled, String.length_append, String.length_append]
  have slash : "/".length = 1 := rfl
  omega

/-- Of two paths that lead to one file one is shorter, as a text and in components. -/
theorem ordered_of_leads {file first second : String} (firstPath : IsWorkspacePath first)
    (secondPath : IsWorkspacePath second) (firstLeads : parts first <+: parts file)
    (secondLeads : parts second <+: parts file) :
    first = second
      ∨ first.length < second.length ∧ (parts first).length < (parts second).length
      ∨ second.length < first.length ∧ (parts second).length < (parts first).length := by
  have shorter {short long : String} (shortPath : IsWorkspacePath short) (longPath : IsWorkspacePath long)
      (different : short ≠ long) (leads : parts short <+: parts long) :
      short.length < long.length ∧ (parts short).length < (parts long).length := by
    have apart : parts short ≠ parts long :=
      fun same => different (shortPath.normal.spelled.injective longPath.normal.spelled same)
    have fewer : (parts short).length ≠ (parts long).length := fun same => apart (leads.eq_of_length same)
    exact ⟨length_lt_of_leads shortPath longPath leads apart, Nat.lt_of_le_of_ne leads.length_le fewer⟩
  by_cases same : first = second
  · exact Or.inl same
  · rcases List.prefix_or_prefix_of_prefix firstLeads secondLeads with below | above
    · exact Or.inr (Or.inl (shorter firstPath secondPath same below))
    · exact Or.inr (Or.inr (shorter secondPath firstPath (Ne.symm same) above))

/-- The owner of a file is the most specific workspace that leads to it. -/
theorem owning_eq_some_iff {workspaces : List String} {file workspace : String}
    (paths : ∀ workspace ∈ workspaces, IsWorkspacePath workspace) (spelled : IsSpelled file) :
    owning file workspaces = some workspace ↔ MostSpecific workspaces file workspace := by
  have owner (other : String) (member : other ∈ workspaces) :
      other ∈ workspaces.filter (owns · file) ↔ parts other <+: parts file := by
    rw [List.mem_filter, and_iff_right member, owns_iff (paths other member) spelled]
  have chosenSpecific (chosen : String) (kept : chosen ∈ workspaces.filter (owns · file))
      (bound : ∀ other ∈ workspaces.filter (owns · file), other.length ≤ chosen.length) :
      MostSpecific workspaces file chosen := by
    have member := (List.mem_filter.mp kept).1
    have leads := (owner chosen member).mp kept
    refine ⟨member, leads, ?_⟩
    intro other present otherLeads
    rcases ordered_of_leads (paths chosen member) (paths other present) leads otherLeads with
      rfl | ⟨longerText, _⟩ | ⟨_, fewer⟩
    · exact Nat.le_refl _
    · have bounded := bound other ((owner other present).mpr otherLeads)
      omega
    · omega
  constructor
  · intro found
    unfold owning at found
    by_cases none : workspaces.filter (owns · file) = []
    · rw [none] at found
      cases found
    · obtain ⟨chosen, folded, kept, bound⟩ := foldl_longer _ none
      rw [folded, Option.some.injEq] at found
      subst found
      exact chosenSpecific chosen kept bound
  · intro specific
    have some : workspaces.filter (owns · file) ≠ [] :=
      List.ne_nil_of_mem ((owner workspace specific.member).mpr specific.leads)
    obtain ⟨chosen, folded, kept, bound⟩ := foldl_longer _ some
    unfold owning
    rw [folded, specific.unique paths (chosenSpecific chosen kept bound)]

/-! ### Any path as the file -/

/-- Whether a path is another one or leads to it, component by component, both from the top or
neither. -/
def LeadsTo (path other : String) : Prop :=
  isAbsolute path = isAbsolute other ∧ parts path <+: parts other

instance (path other : String) : Decidable (LeadsTo path other) :=
  inferInstanceAs (Decidable (_ ∧ _))

theorem owns_iff_leadsTo {workspace file : String} (path : IsWorkspacePath workspace)
    (shortest : normalize file = file) : owns workspace file = true ↔ LeadsTo workspace file := by
  have beside := path.normal.relative
  by_cases top : isAbsolute file = true
  · constructor
    · intro owned
      have same : isAbsolute file = isAbsolute workspace := by
        rcases (owns_eq_true_iff path file).mp owned with rfl | ⟨rest, rfl⟩
        · rfl
        · exact isAbsolute_slash path.normal.spelled.stem rest
      rw [top, beside] at same
      cases same
    · rintro ⟨same, _⟩
      rw [top, beside] at same
      cases same
  · have relative : isAbsolute file = false := Bool.eq_false_iff.mpr top
    rw [owns_iff path (IsNormal.spelled ⟨relative, shortest⟩), LeadsTo, beside, relative]
    exact (and_iff_right rfl).symm

theorem owning_eq_none_iff {workspaces : List String} {file : String}
    (paths : ∀ workspace ∈ workspaces, IsWorkspacePath workspace) (shortest : normalize file = file) :
    owning file workspaces = none ↔ ∀ workspace ∈ workspaces, ¬LeadsTo workspace file := by
  have owner (workspace : String) (member : workspace ∈ workspaces) :
      owns workspace file = true ↔ LeadsTo workspace file :=
    owns_iff_leadsTo (paths workspace member) shortest
  unfold owning
  by_cases none : workspaces.filter (owns · file) = []
  · rw [none]
    refine iff_of_true rfl fun workspace member leads => ?_
    exact List.filter_eq_nil_iff.mp none workspace member ((owner workspace member).mpr leads)
  · obtain ⟨chosen, folded, kept, _⟩ := foldl_longer _ none
    obtain ⟨member, owned⟩ := List.mem_filter.mp kept
    rw [folded]
    exact iff_of_false nofun fun nobody => nobody chosen member ((owner chosen member).mp owned)

/-- The owner is whoever leads to the file and has more components than all others that do. -/
theorem owning_eq_some_iff_most {workspaces : List String} {file : String}
    (paths : ∀ workspace ∈ workspaces, IsWorkspacePath workspace) (shortest : normalize file = file)
    (workspace : String) :
    owning file workspaces = some workspace
      ↔ workspace ∈ workspaces ∧ LeadsTo workspace file
        ∧ ∀ other ∈ workspaces, LeadsTo other file → other ≠ workspace →
          (parts other).length < (parts workspace).length := by
  by_cases top : isAbsolute file = true
  · -- A path from the top has no owner.
    have apart (other : String) (member : other ∈ workspaces) : ¬LeadsTo other file := by
      rintro ⟨same, _⟩
      rw [top, (paths other member).normal.relative] at same
      cases same
    rw [(owning_eq_none_iff paths shortest).mpr apart]
    exact iff_of_false nofun fun ⟨member, leads, _⟩ => apart workspace member leads
  · have relative : isAbsolute file = false := Bool.eq_false_iff.mpr top
    have leadsIff (other : String) (member : other ∈ workspaces) :
        LeadsTo other file ↔ parts other <+: parts file := by
      rw [LeadsTo, (paths other member).normal.relative, relative]
      exact and_iff_right rfl
    rw [owning_eq_some_iff paths (IsNormal.spelled ⟨relative, shortest⟩)]
    constructor
    · rintro ⟨member, leads, longest⟩
      refine ⟨member, (leadsIff workspace member).mpr leads, fun other present otherLeads differs => ?_⟩
      have otherPrefix := (leadsIff other present).mp otherLeads
      have bound := longest other present otherPrefix
      rcases ordered_of_leads (paths other present) (paths workspace member) otherPrefix leads with
        same | ⟨_, fewer⟩ | ⟨_, more⟩
      · exact absurd same differs
      · exact fewer
      · omega
    · rintro ⟨member, leads, most⟩
      refine ⟨member, (leadsIff workspace member).mp leads, fun other present otherPrefix => ?_⟩
      by_cases same : other = workspace
      · exact Nat.le_of_eq (by rw [same])
      · exact Nat.le_of_lt (most other present ((leadsIff other present).mpr otherPrefix) same)

/-- A workspace and another one whose text goes on where the first one's ends, but not with a slash,
own no file both. -/
theorem not_owns_both {workspace more : String} (path : IsWorkspacePath workspace)
    (sibling : IsWorkspacePath (workspace ++ more)) (filled : more ≠ "")
    (named : more.toList.head? ≠ some '/') (file : String) :
    ¬(owns workspace file = true ∧ owns (workspace ++ more) file = true) := by
  rintro ⟨owned, ownedToo⟩
  -- What follows the shorter text in the file is nothing, or starts with a slash.
  obtain ⟨rest, split, start⟩ : ∃ rest, file = workspace ++ rest
      ∧ (rest = "" ∨ rest.toList.head? = some '/') := by
    rcases (owns_eq_true_iff path file).mp owned with same | ⟨rest, same⟩
    · exact ⟨"", by rw [same, String.append_empty], Or.inl rfl⟩
    · refine ⟨"/" ++ rest, by rw [same, String.append_assoc], Or.inr ?_⟩
      rw [String.toList_append]
      rfl
  obtain ⟨after, continued⟩ : ∃ after, file = workspace ++ (more ++ after) := by
    rcases (owns_eq_true_iff sibling file).mp ownedToo with same | ⟨after, same⟩
    · exact ⟨"", by rw [same, String.append_empty]⟩
    · exact ⟨"/" ++ after, by rw [same]; simp only [String.append_assoc]⟩
  have chars := congrArg String.toList (split.symm.trans continued)
  rw [String.toList_append, String.toList_append, List.append_cancel_left_eq, String.toList_append]
    at chars
  cases spelled : more.toList with
  | nil => exact filled (String.toList_eq_nil_iff.mp spelled)
  | cons char others =>
      rw [spelled, List.cons_append] at chars
      rw [spelled, List.head?_cons] at named
      rcases start with rfl | slash
      · cases chars
      · rw [chars, List.head?_cons] at slash
        exact named slash

/-- A file has an owner where a workspace leads to it, and then the one with the most components, in
whichever order the workspaces are looked at. No two of those that lead to it are equally long, and
one whose name merely begins like the owner's is not among them. -/
theorem owner_is_most_specific {workspaces : List String} {file : String}
    (paths : ∀ workspace ∈ workspaces, IsWorkspacePath workspace) (shortest : normalize file = file) :
    (owning file workspaces = none ↔ ∀ workspace ∈ workspaces, ¬LeadsTo workspace file)
      ∧ (∀ workspace, owning file workspaces = some workspace
        ↔ workspace ∈ workspaces ∧ LeadsTo workspace file
          ∧ ∀ other ∈ workspaces, LeadsTo other file → other ≠ workspace →
            (parts other).length < (parts workspace).length)
      ∧ (∀ order : List String, (∀ workspace, workspace ∈ order ↔ workspace ∈ workspaces) →
        owning file order = owning file workspaces)
      ∧ (∀ first ∈ workspaces, ∀ second ∈ workspaces, LeadsTo first file → LeadsTo second file →
        first.length = second.length ∨ (parts first).length = (parts second).length → first = second)
      ∧ ∀ workspace more, IsWorkspacePath workspace → IsWorkspacePath (workspace ++ more) → more ≠ "" →
        more.toList.head? ≠ some '/' →
        ¬(owns workspace file = true ∧ owns (workspace ++ more) file = true) := by
  refine ⟨owning_eq_none_iff paths shortest, owning_eq_some_iff_most paths shortest, ?_, ?_,
    fun _ _ path sibling filled named => not_owns_both path sibling filled named file⟩
  · intro order same
    have orderPaths : ∀ workspace ∈ order, IsWorkspacePath workspace :=
      fun workspace member => paths workspace ((same workspace).mp member)
    refine Option.ext fun workspace => ?_
    rw [owning_eq_some_iff_most orderPaths shortest, owning_eq_some_iff_most paths shortest]
    simp only [same]
  · intro first firstMember second secondMember firstLeads secondLeads tie
    rcases ordered_of_leads (paths first firstMember) (paths second secondMember) firstLeads.2
      secondLeads.2 with rfl | ⟨shorter, fewer⟩ | ⟨shorter, fewer⟩
    · rfl
    · omega
    · omega

/-- Of nested workspaces the inner one owns the file, and its sibling's name is no part in that. -/
theorem inner_workspace_owns :
    (∀ workspace ∈ ["packages", "packages/a", "packages/ab"], IsWorkspacePath workspace)
      ∧ normalize "packages/ab/index.ts" = "packages/ab/index.ts"
      ∧ owning "packages/ab/index.ts" ["packages", "packages/a", "packages/ab"] = some "packages/ab"
      ∧ owning "packages/ab/index.ts" ["packages/ab", "packages/a", "packages"] = some "packages/ab"
      ∧ owns "packages/a" "packages/ab/index.ts" = false := by
  have paths : ∀ workspace ∈ ["packages", "packages/a", "packages/ab"], IsWorkspacePath workspace := by
    decide +kernel
  have shortest : normalize "packages/ab/index.ts" = "packages/ab/index.ts" := by decide +kernel
  obtain ⟨_, some_iff, any, _, apart⟩ := owner_is_most_specific paths shortest
  have owner : owning "packages/ab/index.ts" ["packages", "packages/a", "packages/ab"]
      = some "packages/ab" := (some_iff "packages/ab").mpr (by decide +kernel)
  have reversed : ∀ workspace, workspace ∈ ["packages/ab", "packages/a", "packages"]
      ↔ workspace ∈ ["packages", "packages/a", "packages/ab"] := by
    intro workspace
    simp only [List.mem_cons, List.not_mem_nil, or_false]
    exact ⟨by rintro (rfl | rfl | rfl) <;> decide, by rintro (rfl | rfl | rfl) <;> decide⟩
  have own : owns "packages/ab" "packages/ab/index.ts" = true := by decide +kernel
  have sibling := apart "packages/a" "b" (by decide +kernel) (by decide +kernel) (by decide) (by decide)
  refine ⟨paths, shortest, owner, (any _ reversed).trans owner, Bool.eq_false_iff.mpr fun owned => ?_⟩
  exact sibling ⟨owned, own⟩

end Workspace
end RefSync
