/-
The places that paths mean. Seen from the root, a path goes on to mean the same place, and
no two paths as they are seen from the root mean one. An artifact of a workspace has such a
path unless the way to the workspace ends where the way to its artifact goes on.
-/

import RefSync.FileTree
import RefSync.Proofs.Workspace.Documents
import RefSync.Proofs.Workspace.Relative

namespace RefSync

open Path

/-! ### Climbing -/

section

variable {rooted : Bool}

private theorem foldl_push_down (target : List String) (here : List String)
    (down : ".." ∉ target) :
    target.foldl (push rooted) here.reverse = (here ++ target).reverse := by
  induction target generalizing here with
  | nil => rw [List.foldl_nil, List.append_nil]
  | cons part rest ih =>
      rw [List.mem_cons, not_or] at down
      have pushed : push rooted here.reverse part = (here ++ [part]).reverse := by
        rw [push.eq_def, if_pos (bne_iff_ne.mpr (Ne.symm down.1)), List.reverse_append,
          List.reverse_singleton, List.singleton_append]
      rw [List.foldl_cons, pushed, ih (here ++ [part]) down.2, List.append_assoc,
        List.singleton_append]

private theorem foldl_push_up (top below : List String) (down : ".." ∉ top) :
    (List.replicate top.length "..").foldl (push rooted) (top ++ below) = below := by
  induction top with
  | nil => rfl
  | cons part rest ih =>
      rw [List.mem_cons, not_or] at down
      have differs : (part == "..") = false := beq_false_of_ne (Ne.symm down.1)
      have climbs : push rooted (part :: (rest ++ below)) ".." = rest ++ below := by
        simp only [push, bne_self_eq_false, differs, Bool.false_eq_true, if_false]
      rw [List.length_cons, List.replicate_succ, List.foldl_cons, List.cons_append, climbs,
        ih down.2]

private theorem foldl_climb_away (away here : List String) (down : ".." ∉ away) :
    (away.map fun _ => "..").foldl (push rooted) (here ++ away).reverse = here.reverse := by
  have up := @foldl_push_up rooted away.reverse here.reverse (mt List.mem_reverse.mp down)
  rw [List.length_reverse] at up
  rw [List.map_const', List.reverse_append]
  exact up

private theorem foldl_climb (start target here : List String) (downStart : ".." ∉ start)
    (downTarget : ".." ∉ target) :
    (climb start target).foldl (push rooted) (here ++ start).reverse = (here ++ target).reverse := by
  induction start generalizing target here with
  | nil =>
      rw [List.append_nil]
      exact foldl_push_down target here downTarget
  | cons first rest ih =>
      cases target with
      | nil =>
          rw [List.append_nil]
          exact foldl_climb_away (first :: rest) here downStart
      | cons there others =>
          rw [climb]
          split
          · rename_i same
            rw [← eq_of_beq same]
            have later := ih others (here ++ [first]) (fun member => downStart (List.mem_cons_of_mem _ member))
              fun member => downTarget (List.mem_cons_of_mem _ member)
            rw [List.append_assoc, List.append_assoc] at later
            exact later
          · rw [List.foldl_append, foldl_climb_away (first :: rest) here downStart]
            exact foldl_push_down (there :: others) here downTarget

theorem resolve_names {names : List String} (down : ".." ∉ names) : resolve rooted names = names := by
  have pushed : names.foldl (push rooted) [] = names.reverse := foldl_push_down names [] down
  rw [resolve, pushed, List.reverse_reverse]

/-- Who follows the way from one directory to another arrives, however the directory was come to. -/
theorem resolve_climb {front here start target : List String}
    (arrived : resolve rooted front = here ++ start) (downStart : ".." ∉ start)
    (downTarget : ".." ∉ target) :
    resolve rooted (front ++ climb start target) = here ++ target := by
  have stack : front.foldl (push rooted) [] = (here ++ start).reverse := by
    rw [← arrived, resolve, List.reverse_reverse]
  rw [resolve, List.foldl_append, stack, foldl_climb start target here downStart downTarget,
    List.reverse_reverse]

end

theorem not_mem_resolve (components : List String) : ".." ∉ resolve true components := by
  have general : ∀ (rest stack : List String), ".." ∉ stack → ".." ∉ rest.foldl (push true) stack := by
    intro rest
    induction rest with
    | nil => exact fun _ => id
    | cons part others ih =>
        intro stack down
        apply ih
        unfold push
        split
        · rename_i named
          rw [List.mem_cons, not_or]
          exact ⟨(bne_iff_ne.mp named).symm, down⟩
        · cases stack with
          | nil => exact List.not_mem_nil
          | cons top below =>
              rw [List.mem_cons, not_or] at down
              dsimp only
              rw [if_neg (mt eq_of_beq (Ne.symm down.1))]
              exact down.2
  exact mt List.mem_reverse.mp (general components [] List.not_mem_nil)

theorem resolve_append_names (components : List String) {names : List String} (down : ".." ∉ names) :
    resolve true (components ++ names) = resolve true components ++ names := by
  induction names generalizing components with
  | nil => rw [List.append_nil, List.append_nil]
  | cons name rest ih =>
      rw [List.mem_cons, not_or] at down
      have moved (front : List String) : front ++ name :: rest = front ++ [name] ++ rest := by
        rw [List.append_assoc, List.singleton_append]
      rw [moved, ih _ down.2, resolve_append_name _ (Ne.symm down.1), moved]

/-- One level up from a place is what is above it. -/
theorem resolve_append_up (components : List String) :
    resolve true (components ++ [".."]) = (resolve true components).dropLast := by
  have down := not_mem_resolve components
  rw [resolve, List.mem_reverse] at down
  rw [resolve, resolve, List.foldl_append, List.foldl_cons, List.foldl_nil, List.dropLast_reverse]
  cases stacked : components.foldl (push true) [] with
  | nil => rfl
  | cons top below =>
      rw [stacked, List.mem_cons, not_or] at down
      have climbs : push true (top :: below) ".." = below := by
        simp only [push, bne_self_eq_false, beq_false_of_ne (Ne.symm down.1), Bool.false_eq_true, if_false]
      rw [climbs, List.tail_cons]

/-- The way down from above a place that the way from there does not go through. -/
theorem climb_append {start target rest : List String} {next : String}
    (apart : ¬target ++ [next] <+: start) :
    climb start (target ++ next :: rest) = climb start target ++ next :: rest := by
  induction start generalizing target with
  | nil => rfl
  | cons first others ih =>
      cases target with
      | nil =>
          have differs : (first == next) = false := by
            apply beq_false_of_ne
            rintro rfl
            exact apart ⟨others, rfl⟩
          have aside : climb (first :: others) (next :: rest)
              = (first :: others).map (fun _ => "..") ++ next :: rest := by
            rw [climb, if_neg (by rw [differs]; decide)]
          exact aside
      | cons there below =>
          rw [List.cons_append, climb, climb]
          split
          · rename_i same
            apply ih
            rintro ⟨more, spelled⟩
            exact apart ⟨more, by rw [eq_of_beq same, ← spelled]; rfl⟩
          · rw [List.append_assoc]
            rfl

theorem climb_prefix (shared start target : List String) :
    climb (shared ++ start) (shared ++ target) = climb start target := by
  induction shared with
  | nil => rfl
  | cons part rest ih =>
      rw [List.cons_append, List.cons_append, climb, if_pos (beq_self_eq_true part), ih]

theorem length_climb_le (start target : List String) :
    (climb start target).length ≤ start.length + target.length := by
  induction start generalizing target with
  | nil => exact Nat.le_add_left _ _
  | cons first rest ih =>
      cases target with
      | nil =>
          change ((first :: rest).map fun _ => "..").length ≤ _
          rw [List.length_map]
          omega
      | cons there others =>
          have shorter := ih others
          rw [climb]
          split
          · rw [List.length_cons, List.length_cons]
            omega
          · exact Nat.le_of_eq (by rw [List.length_append, List.length_map])

namespace Project

variable {project : Project}

theorem fromRoot_append (project : Project) (components : List String) :
    project.fromRoot (project.resolved "" ++ components) = ofParts components := by
  have straight := climb_prefix (project.resolved "") [] components
  rw [List.append_nil] at straight
  rw [fromRoot, straight]
  rfl

theorem resolved_relative (project : Project) (path : String) :
    project.resolved (project.relative path) = project.resolved path := by
  have proper : ∀ part ∈ climb (project.resolved "") (project.resolved path), IsComponent part :=
    climb_components fun part member => isComponent_of_mem_parts (mem_of_mem_resolve member)
  have arrived : resolve true (parts project.root) = [] ++ project.resolved "" := by
    rw [project.resolved_root, List.nil_append]
  have place : resolve true (parts project.root ++ climb (project.resolved "") (project.resolved path))
      = project.resolved path :=
    resolve_climb arrived (not_mem_resolve _) (not_mem_resolve _)
  rw [resolved_eq, parts_absolute, relative, if_neg, parts_ofParts proper, place]
  rw [isAbsolute_ofParts proper]
  decide

/-- The base of relative paths is a place. -/
theorem resolve_deepBase (project : Project) (path start : String) :
    resolve true (project.deepBase path start) = project.deepBase path start := by
  apply resolve_names
  intro member
  rcases List.mem_append.mp member with deep | own
  · exact absurd (List.eq_of_mem_replicate deep) (by decide)
  · exact not_mem_resolve _ own

theorem relative_relative (project : Project) (path : String) :
    project.relative (project.relative path) = project.relative path := by
  rw [relative, resolved_relative, relative]

namespace IsRelative

variable {path other : String}

theorem fixed (relative : project.IsRelative path) : project.relative path = path := by
  obtain ⟨given, rfl⟩ := relative
  exact project.relative_relative given

/-- A path as it is seen from the root is the way from there. -/
theorem parts_eq (relative : project.IsRelative path) :
    parts path = climb (project.resolved "") (project.resolved path) := by
  have proper : ∀ part ∈ climb (project.resolved "") (project.resolved path), IsComponent part :=
    climb_components fun part member => isComponent_of_mem_parts (mem_of_mem_resolve member)
  have spelled := congrArg parts relative.fixed
  rw [Project.relative, parts_ofParts proper] at spelled
  exact spelled.symm

/-- A place has one path. -/
theorem injective (relative : project.IsRelative path) (otherRelative : project.IsRelative other)
    (same : project.resolved path = project.resolved other) : path = other := by
  rw [← relative.fixed, ← otherRelative.fixed, Project.relative, Project.relative, same]

/-- The root refers to a workspace by its path. -/
theorem referencePath?_root (relative : project.IsRelative path) :
    project.referencePath? path none = some path := by
  have filled : path.isEmpty = false := by
    simpa using relative.spelled.stem.filled
  have arrived := project.resolve_deepBase path ""
  have here : project.resolvedFrom (project.deepBase path "") "" = project.deepBase path "" := by
    rw [resolvedFrom, if_neg (by decide), parts_empty, List.append_nil, arrived]
  have there : project.resolvedFrom (project.deepBase path "") path
      = List.replicate (path.length + "".length) "" ++ project.resolved path := by
    rw [resolvedFrom, relative.spelled.notAbsolute, if_neg (by decide), relative.parts_eq]
    exact resolve_climb arrived (not_mem_resolve _) (not_mem_resolve _)
  unfold referencePath?
  rw [filled, if_neg (by decide)]
  dsimp only [Option.getD_none]
  rw [relative.spelled.notAbsolute, show isAbsolute "" = false from rfl, Bool.or_false,
    if_neg (by decide), here, there, deepBase, climb_prefix]
  exact congrArg some relative.fixed

end IsRelative

/-- A place has the name that its path ends with. -/
theorem last_resolved (project : Project) {path name : String}
    (last : (parts path).getLast? = some name) (named : name ≠ "..") :
    (project.resolved path).getLast? = some name := by
  obtain ⟨above, split⟩ := List.getLast?_eq_some_iff.mp last
  rw [resolved_eq, parts_absolute, split]
  by_cases rooted : isAbsolute path = true
  · rw [if_pos rooted, resolve_append_name above named, List.getLast?_concat]
  · rw [if_neg rooted, ← List.append_assoc, resolve_append_name _ named, List.getLast?_concat]

/-- The components of something in a directory, from the root of all. -/
theorem parts_slash_absolute {project : Project} {directory name : String} (stem : IsStem directory)
    (proper : IsComponent name) :
    parts (project.absolute (directory ++ "/" ++ name))
      = parts (project.absolute directory) ++ [name] := by
  rw [parts_absolute, parts_absolute, isAbsolute_slash stem, parts_slash, parts_of_isComponent proper]
  split
  · rfl
  · rw [List.append_assoc]

/-- The place of something in a directory. -/
theorem resolved_slash (project : Project) {directory name : String} (stem : IsStem directory)
    (named : IsName name) :
    project.resolved (directory ++ "/" ++ name) = project.resolved directory ++ [name] := by
  rw [resolved_eq, resolved_eq, parts_slash_absolute stem named.component]
  exact resolve_append_name _ named.notParent

/-- The root as it is seen from the root. -/
theorem isRelative_here (project : Project) : project.IsRelative "." := by
  have nothing := project.fromRoot_append []
  rw [List.append_nil] at nothing
  exact ⟨"", nothing⟩

theorem resolved_here (project : Project) : project.resolved "." = project.resolved "" := by
  rw [resolved_eq, resolved_eq, parts_absolute, parts_absolute]
  rfl

/-- A workspace is not where the root is, unless it is the root. -/
theorem IsRelative.apart {workspace : String} (relative : project.IsRelative workspace)
    (below : workspace ≠ ".") : project.resolved workspace ≠ project.resolved "" := by
  intro same
  exact below (relative.injective project.isRelative_here (same.trans project.resolved_here.symm))

theorem absolute_of_spelled (project : Project) {path : String} (spelled : IsSpelled path)
    (below : path ≠ ".") : project.absolute path = join project.root path := by
  obtain ⟨some, joined⟩ := spelled.eq_joinParts below
  have filled : (parts path).isEmpty = false := by simpa using some
  unfold absolute
  rw [spelled.notAbsolute, if_neg (by decide)]
  dsimp only
  rw [filled, if_neg (by decide), ← joined]

/-- The text of a document of a workspace goes on where that of the workspace ends. -/
theorem absolute_slash {workspace name : String} (relative : project.IsRelative workspace)
    (below : workspace ≠ ".") (proper : IsComponent name) :
    project.absolute (workspace ++ "/" ++ name) = project.absolute workspace ++ "/" ++ name := by
  have both := relative.spelled.slash below proper
  rw [project.absolute_of_spelled both (slash_ne_here _ proper),
    project.absolute_of_spelled relative.spelled below]
  unfold join
  rw [both.notAbsolute, relative.spelled.notAbsolute]
  simp only [Bool.false_eq_true, if_false]
  split <;> simp only [String.append_assoc]

/-- Whether a path is that of something right in a directory. -/
structure Inside (project : Project) (directory path name : String) : Prop where
  named : IsName name
  parts : parts (project.absolute path) = parts (project.absolute directory) ++ [name]
  text : ∃ more, project.absolute path = project.absolute directory ++ more

theorem Inside.resolved {directory path name : String} (inside : project.Inside directory path name) :
    project.resolved path = project.resolved directory ++ [name] := by
  rw [resolved_eq, resolved_eq, inside.parts]
  exact resolve_append_name _ inside.named.notParent

theorem inside_slash {workspace name : String} (relative : project.IsRelative workspace)
    (below : workspace ≠ ".") (named : IsName name) :
    project.Inside workspace (workspace ++ "/" ++ name) name where
  named := named
  parts := parts_slash_absolute relative.spelled.stem named.component
  text := ⟨"/" ++ name, by rw [absolute_slash relative below named.component, String.append_assoc]⟩

theorem inside_root (project : Project) {name : String} (named : IsName name) :
    project.Inside "." name name := by
  have absolute : isAbsolute name = false := isAbsolute_of_noSlash named.component.oneName
  refine ⟨named, ?_, ?_⟩
  · rw [parts_absolute, parts_absolute, absolute, if_neg (by decide), if_neg (by decide), parts_here,
      List.append_nil, parts_of_isComponent named.component]
  · have here : project.absolute "." = project.root := by
      unfold Project.absolute
      rw [parts_here]
      rfl
    have there : project.absolute name = join project.root name := by
      unfold Project.absolute
      rw [absolute, parts_of_isComponent named.component]
      exact congrArg (join project.root) (joinParts_singleton name)
    rw [here, there, join, absolute, if_neg (by decide)]
    split
    · exact ⟨name, rfl⟩
    · exact ⟨"/" ++ name, String.append_assoc⟩

end Project

namespace Workspace

variable {workspace : String} (project : Project) (stem : IsStem workspace)

include stem

theorem parts_absolute_artifactPath :
    parts (project.absolute (artifactPath workspace))
      = parts (project.absolute workspace) ++ [Config.artifactDirectory, Config.artifactFile] := by
  rw [artifactPath_of_stem stem, Project.parts_slash_absolute (isStem_artifactDirectory workspace)
    isName_artifactFile.component, Project.parts_slash_absolute stem isName_artifactDirectory.component,
    List.append_assoc]
  rfl

theorem resolved_manifestPath :
    project.resolved (manifestPath workspace) = project.resolved workspace ++ [manifestFile] := by
  rw [manifestPath_of_stem stem]
  exact project.resolved_slash stem isName_manifestFile

theorem resolved_configPath :
    project.resolved (configPath workspace) = project.resolved workspace ++ [configFile] := by
  rw [configPath_of_stem stem]
  exact project.resolved_slash stem isName_configFile

/-- The config of a workspace is not the root config, unless the workspace is the root. -/
theorem configPath_apart (apart : project.resolved workspace ≠ project.resolved "") :
    project.resolved (configPath workspace) ≠ project.resolved configFile := by
  have root : project.resolved configFile = project.resolved "" ++ [configFile] := by
    rw [(project.inside_root isName_configFile).resolved, project.resolved_here]
  rw [resolved_configPath project stem, root]
  exact fun same => apart (List.append_inj_left' same rfl)

theorem resolved_artifactPath :
    project.resolved (artifactPath workspace)
      = project.resolved workspace ++ [Config.artifactDirectory, Config.artifactFile] := by
  rw [artifactPath_of_stem stem,
    project.resolved_slash (isStem_artifactDirectory workspace) isName_artifactFile,
    project.resolved_slash stem isName_artifactDirectory, List.append_assoc]
  rfl

end Workspace

/-- Where events of a workspace's artifact are known for what they are: the way to the
artifact does not lead back into the directory the project is in. -/
structure Workspace.IsApart (project : Project) (workspace : String) : Prop where
  notRoot : workspace ≠ "."
  notAbove : ¬project.resolved workspace ++ [Config.artifactDirectory] <+: project.resolved ""

namespace Workspace

variable {project : Project} {workspace : String} (relative : project.IsRelative workspace)

include relative

/-- The artifact of a workspace is known by its path, as the root sees it, where and only
where the workspace is apart. -/
theorem relative_artifactPath :
    project.relative (artifactPath workspace) = artifactPath workspace
      ↔ IsApart project workspace := by
  have stem : IsStem workspace := relative.spelled.stem
  have place := resolved_artifactPath project stem
  have proper (target : List String) (each : ∀ part ∈ target, IsComponent part) :
      ∀ part ∈ climb (project.resolved "") target, IsComponent part := climb_components each
  have ownParts : ∀ part ∈ project.resolved workspace, IsComponent part :=
    fun part member => isComponent_of_mem_parts (mem_of_mem_resolve member)
  have allParts : ∀ part ∈ project.resolved workspace
      ++ [Config.artifactDirectory, Config.artifactFile], IsComponent part := by
    intro part member
    rcases List.mem_append.mp member with own | below
    · exact ownParts part own
    · rcases List.mem_cons.mp below with rfl | last
      · exact isName_artifactDirectory.component
      · rw [List.mem_singleton.mp last]
        exact isName_artifactFile.component
  have climbs : parts (project.relative (artifactPath workspace))
      = climb (project.resolved "") (project.resolved workspace
        ++ [Config.artifactDirectory, Config.artifactFile]) := by
    rw [Project.relative, place, parts_ofParts (proper _ allParts)]
  have ownClimb := relative.parts_eq
  have spelledOut : parts (artifactPath workspace)
      = parts workspace ++ [Config.artifactDirectory, Config.artifactFile] := by
    rw [artifactPath_of_stem stem, parts_slash, parts_slash, List.append_assoc]
    rfl
  constructor
  · intro same
    constructor
    · rintro rfl
      have spelled := project.relative_spelled (artifactPath ".")
      rw [same, IsSpelled] at spelled
      exact absurd spelled (by decide)
    · rintro ⟨below, spelled⟩
      have root : project.resolved ""
          = project.resolved workspace ++ Config.artifactDirectory :: below := by
        rw [← spelled, List.append_assoc]
        rfl
      have back : parts (artifactPath workspace) = climb below [Config.artifactFile] := by
        rw [same, root, climb_prefix, climb, if_pos (beq_self_eq_true _)] at climbs
        exact climbs
      have up : (parts workspace).length = below.length + 1 := by
        have climbed := climb_prefix (project.resolved workspace)
          (Config.artifactDirectory :: below) []
        rw [List.append_nil, ← root, ← ownClimb] at climbed
        have length := congrArg List.length climbed
        change (parts workspace).length
          = ((Config.artifactDirectory :: below).map fun _ => "..").length at length
        rw [length, List.length_map, List.length_cons]
      have shorter := length_climb_le below [Config.artifactFile]
      rw [← back, spelledOut, List.length_append, up, List.length_singleton, List.length_cons,
        List.length_singleton] at shorter
      omega
  · intro apart
    have down : parts (project.relative (artifactPath workspace))
        = parts (artifactPath workspace) := by
      rw [climbs, climb_append apart.notAbove, spelledOut, ownClimb]
    have spelled : IsSpelled (artifactPath workspace) := by
      rw [artifactPath_of_stem stem]
      exact (relative.spelled.slash apart.notRoot isName_artifactDirectory.component).slash
        (slash_ne_here _ isName_artifactDirectory.component) isName_artifactFile.component
    exact (project.relative_spelled _).injective spelled down

end Workspace

namespace Watch

variable {project : Project} {workspace : String}

/-- The places of the manifest and the config of a workspace. -/
def DocumentPlace (project : Project) (workspace : String) (place : Place) : Prop :=
  place = project.resolved (Workspace.manifestPath workspace)
    ∨ place = project.resolved (Workspace.configPath workspace)

/-- The documents of workspaces are in different places. -/
theorem documents_apart {other : String} (relative : project.IsRelative workspace)
    (otherRelative : project.IsRelative other) :
    (other = workspace
        ∨ project.resolved (Workspace.configPath other) ≠ project.resolved (Workspace.configPath workspace))
      ∧ (other = workspace ∨ project.resolved (Workspace.manifestPath other)
          ≠ project.resolved (Workspace.manifestPath workspace))
      ∧ project.resolved (Workspace.manifestPath other)
          ≠ project.resolved (Workspace.configPath workspace) := by
  rw [Workspace.resolved_configPath project relative.spelled.stem,
    Workspace.resolved_manifestPath project relative.spelled.stem,
    Workspace.resolved_configPath project otherRelative.spelled.stem,
    Workspace.resolved_manifestPath project otherRelative.spelled.stem]
  refine ⟨?_, ?_, fun same => ?_⟩
  · by_cases own : other = workspace
    · exact Or.inl own
    · exact Or.inr fun same => own (otherRelative.injective relative (List.append_inj_left' same rfl))
  · by_cases own : other = workspace
    · exact Or.inl own
    · exact Or.inr fun same => own (otherRelative.injective relative (List.append_inj_left' same rfl))
  · exact absurd (List.append_inj_right' same rfl) (by decide)

theorem documentPlace_apart {other : String} (relative : project.IsRelative workspace)
    (otherRelative : project.IsRelative other) (differ : other ≠ workspace) {place : Place}
    (mine : DocumentPlace project workspace place) : ¬DocumentPlace project other place := by
  obtain ⟨configs, manifests, manifestConfig⟩ := documents_apart relative otherRelative
  have configManifest := (documents_apart otherRelative relative).2.2
  rcases mine with rfl | rfl
  · rintro (same | same)
    · exact manifests.resolve_left differ same.symm
    · exact configManifest same
  · rintro (same | same)
    · exact manifestConfig same.symm
    · exact configs.resolve_left differ same.symm

/-- Below the root no document is in the place of the root config. -/
theorem rootConfig_apart (relative : project.IsRelative workspace) (below : workspace ≠ ".") :
    ¬DocumentPlace project workspace (project.resolved configFile) := by
  rintro (same | same)
  · have last := project.last_resolved (show (parts configFile).getLast? = some configFile by decide)
      (by decide)
    rw [same, Workspace.resolved_manifestPath project relative.spelled.stem,
      List.getLast?_concat] at last
    exact absurd last (by decide)
  · exact Workspace.configPath_apart project relative.spelled.stem (relative.apart below) same.symm

end Watch
end RefSync
