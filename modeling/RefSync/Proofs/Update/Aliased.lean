/-
The aliases that an update of references leaves in a config. Each name is resolved to a reference
first, and where several names share one the last of them gives its name to the alias. A reference
that comes gets its alias; one that was listed keeps the alias it has, and gets none.
-/

import RefSync.Proofs.Config.Aliased
import RefSync.Proofs.Routine.Alone
import RefSync.Proofs.Update

namespace RefSync.Update

open Routine

/-! ### The name of a reference -/

/-- Whether a name is registered for the workspace that a reference of another one leads to. -/
def Refers (project : Project) (registry : Registry) (workspace name reference : String) : Prop :=
  ∃ path, registry.findPath name = some path
    ∧ project.referencePath? path (some workspace) = some reference

section

variable {project : Project} {registry : Registry} {workspace : String}

theorem Refers.unique {name reference other : String}
    (first : Refers project registry workspace name reference)
    (second : Refers project registry workspace name other) : reference = other := by
  obtain ⟨path, found, written⟩ := first
  obtain ⟨place, foundToo, writtenToo⟩ := second
  obtain rfl : path = place := Option.some.inj (found.symm.trans foundToo)
  exact Option.some.inj (written.symm.trans writtenToo)

theorem addTarget_cases {aliases more : Table String} {name : String}
    (taken : addTarget project registry workspace aliases name = .ok more) :
    (∃ reference, Refers project registry workspace name reference
        ∧ more = aliases.set reference name)
      ∨ (∀ reference, ¬Refers project registry workspace name reference) ∧ more = aliases := by
  unfold addTarget at taken
  cases found : registry.findPath name with
  | none =>
      rw [found] at taken
      refine Or.inr ⟨?_, (Except.ok.inj taken).symm⟩
      rintro reference ⟨path, place, _⟩
      rw [found] at place
      cases place
  | some path =>
      rw [found] at taken
      dsimp only at taken
      cases written : project.referencePath? path (some workspace) with
      | none =>
          rw [written] at taken
          cases taken
      | some reference =>
          rw [written] at taken
          exact Or.inl ⟨reference, ⟨path, found, written⟩, (Except.ok.inj taken).symm⟩

theorem addTarget_unplaced {aliases : Table String} {name : String} {fault : Fault}
    (refused : addTarget project registry workspace aliases name = .error fault) :
    fault = .emptyPath ∧ registry.findPath name = some "" := by
  unfold addTarget at refused
  cases found : registry.findPath name with
  | none =>
      rw [found] at refused
      cases refused
  | some path =>
      rw [found] at refused
      dsimp only at refused
      cases written : project.referencePath? path (some workspace) with
      | some reference =>
          rw [written] at refused
          cases refused
      | none =>
          rw [written] at refused
          refine ⟨(Except.error.inj refused).symm, congrArg some ?_⟩
          unfold Project.referencePath? at written
          split at written
          · exact String.isEmpty_iff.mp ‹_›
          · cases written

/-- A reference that none of the names refers to is left as it is. -/
theorem get?_addTargets {names : List String} {before aliases : Table String} {reference : String}
    (folded : names.foldlM (addTarget project registry workspace) before = .ok aliases)
    (elsewhere : ∀ name ∈ names, ¬Refers project registry workspace name reference) :
    aliases.get? reference = before.get? reference := by
  induction names generalizing before with
  | nil =>
      cases folded
      rfl
  | cons name rest ih =>
      rw [List.foldlM_cons] at folded
      cases taken : addTarget project registry workspace before name with
      | error fault =>
          rw [taken] at folded
          cases folded
      | ok between =>
          rw [taken] at folded
          have later := ih folded fun other member => elsewhere other (List.mem_cons_of_mem _ member)
          rcases addTarget_cases taken with ⟨own, refers, rfl⟩ | ⟨_, rfl⟩
          · have differs : reference ≠ own := by
              intro same
              subst same
              exact elsewhere name List.mem_cons_self refers
            rw [later, Table.get?_set, if_neg differs]
          · exact later

/-- Whatever a reference is called, it is called by one of the names that refer to it. -/
theorem refers_of_addTargets {names : List String} {before aliases : Table String}
    {name reference : String}
    (folded : names.foldlM (addTarget project registry workspace) before = .ok aliases)
    (found : aliases.get? reference = some name) :
    before.get? reference = some name
      ∨ name ∈ names ∧ Refers project registry workspace name reference := by
  induction names generalizing before with
  | nil =>
      cases folded
      exact Or.inl found
  | cons first rest ih =>
      rw [List.foldlM_cons] at folded
      cases taken : addTarget project registry workspace before first with
      | error fault =>
          rw [taken] at folded
          cases folded
      | ok between =>
          rw [taken] at folded
          rcases ih folded with earlier | ⟨member, refers⟩
          · rcases addTarget_cases taken with ⟨own, refers, rfl⟩ | ⟨_, rfl⟩
            · rw [Table.get?_set] at earlier
              by_cases same : reference = own
              · rw [if_pos same] at earlier
                obtain rfl : first = name := Option.some.inj earlier
                exact Or.inr ⟨List.mem_cons_self, same ▸ refers⟩
              · rw [if_neg same] at earlier
                exact Or.inl earlier
            · exact Or.inl earlier
          · exact Or.inr ⟨List.mem_cons_of_mem _ member, refers⟩

variable {names : List String}

theorem targetAliases_unplaced {fault : Fault}
    (refused : targetAliases project registry workspace names = .error fault) :
    fault = .emptyPath ∧ ∃ name ∈ names, registry.findPath name = some "" := by
  have folded (names : List String) (before : Table String)
      (refused : names.foldlM (addTarget project registry workspace) before = .error fault) :
      fault = .emptyPath ∧ ∃ name ∈ names, registry.findPath name = some "" := by
    induction names generalizing before with
    | nil => cases refused
    | cons first rest ih =>
        rw [List.foldlM_cons] at refused
        cases taken : addTarget project registry workspace before first with
        | error own =>
            rw [taken] at refused
            obtain rfl : own = fault := Except.error.inj refused
            obtain ⟨isEmpty, place⟩ := addTarget_unplaced taken
            exact ⟨isEmpty, first, List.mem_cons_self, place⟩
        | ok between =>
            rw [taken] at refused
            obtain ⟨isEmpty, name, member, place⟩ := ih between refused
            exact ⟨isEmpty, name, List.mem_cons_of_mem _ member, place⟩
  obtain ⟨isEmpty, name, member, place⟩ := folded _ _ ((targetAliases_eq ..).symm.trans refused)
  exact ⟨isEmpty, name, mem_distinct.mp (mem_sortTexts.mp member), place⟩

variable {aliases : Table String} (resolved : targetAliases project registry workspace names = .ok aliases)

include resolved

theorem refers_of_targetAliases {name reference : String} (found : aliases.get? reference = some name) :
    name ∈ names ∧ Refers project registry workspace name reference := by
  have folded := (targetAliases_eq ..).symm.trans resolved
  rcases refers_of_addTargets folded found with before | ⟨member, refers⟩
  · cases before
  · exact ⟨mem_distinct.mp (mem_sortTexts.mp member), refers⟩

/-- Of the names that refer to a place, the last one is what the reference is called. -/
theorem targetAliases_last {name reference : String} (member : name ∈ names)
    (refers : Refers project registry workspace name reference)
    (last : ∀ other ∈ names, Refers project registry workspace other reference → other ≤ name) :
    aliases.get? reference = some name := by
  have among {other : String} : other ∈ sortTexts (distinct names) ↔ other ∈ names := by
    rw [mem_sortTexts, mem_distinct]
  have folded := (targetAliases_eq ..).symm.trans resolved
  have sorted := sortTexts_pairwise (distinct names)
  have once : (sortTexts (distinct names)).Nodup := sortTexts_nodup.mpr (distinct_nodup names)
  obtain ⟨front, back, split⟩ := List.append_of_mem (among.mpr member)
  rw [split] at folded sorted once
  -- What comes after the name is greater, and so refers to other places.
  have elsewhere : ∀ other ∈ back, ¬Refers project registry workspace other reference := by
    intro other inBack refersToo
    have greater : name ≤ other :=
      (List.pairwise_cons.mp (List.pairwise_append.mp sorted).2.1).1 other inBack
    have inNames : other ∈ names := by
      rw [← among, split]
      exact List.mem_append_right _ (List.mem_cons_of_mem _ inBack)
    obtain rfl : other = name := String.le_antisymm (last other inNames refersToo) greater
    exact (List.nodup_cons.mp (List.nodup_append.mp once).2.1).1 inBack
  rw [List.foldlM_append] at folded
  cases taken : front.foldlM (addTarget project registry workspace) [] with
  | error fault =>
      rw [taken] at folded
      cases folded
  | ok before =>
      rw [taken] at folded
      change List.foldlM (addTarget project registry workspace) before (name :: back) = _ at folded
      rw [List.foldlM_cons] at folded
      cases own : addTarget project registry workspace before name with
      | error fault =>
          rw [own] at folded
          cases folded
      | ok between =>
          rw [own] at folded
          rcases addTarget_cases own with ⟨reached, refersToo, rfl⟩ | ⟨nowhere, _⟩
          · obtain rfl : reached = reference := refersToo.unique refers
            rw [get?_addTargets folded elsewhere, Table.get?_set, if_pos rfl]
          · exact absurd refers (nowhere reference)

/-- References of different names are named apart. -/
theorem distinct_targetAliases (apart : ∀ one ∈ names, ∀ other ∈ names, one ≠ Config.below other) :
    Config.Naming.Distinct aliases.get? where
  injective first second :=
    (refers_of_targetAliases resolved first).2.unique (refers_of_targetAliases resolved second).2
  apart first second := by
    have one := (refers_of_targetAliases resolved first).1
    have other := (refers_of_targetAliases resolved second).1
    exact apart _ other _ one rfl

end

/-! ### Updates of references -/

section

variable {project : Project} {workspace : String} {names : List String}

/-- An update writes the config that it makes, and nothing where the present one is right. -/
theorem leads_references (now : Engine × Disk) {config : Document} {aliases : Table String} {update : Option Document}
    (reads : now.2.read (Workspace.configPath workspace) = .ok (.obj config))
    (resolved : targetAliases project now.1.registry workspace names = .ok aliases)
    (updates : Config.updateReferences? config aliases.keys aliases.get? = .ok update)
    (clean : ∀ updated, update = some updated → Document.Clean updated) :
    Leads Disk.alone (references project workspace names) now fun result later =>
      result = .ok update.isSome
        ∧ later.2.read (Workspace.configPath workspace) = .ok (.obj (update.getD config))
        ∧ (update = none → later = now) := by
  obtain ⟨content, _, holds, _⟩ := Disk.read_eq_ok.mp reads
  unfold references
  apply leads_registry
  apply leads_ok resolved
  have finds : now.2.Finds? (Workspace.configPath workspace) (some config) := reads
  apply leads_readObject? finds
  dsimp only [Option.getD_some]
  rw [updates]
  apply leads_ok rfl
  cases update with
  | none =>
      apply leads_pure
      exact ⟨rfl, reads, fun _ => rfl⟩
  | some updated =>
      have last := Workspace.last_configPath workspace
      have named : configFile ≠ ".." := by decide
      have written := Disk.write_of_holds holds last named updated
      have readBack := Disk.read_write holds last named (clean updated rfl)
      apply leads_writeDocument (congrArg Prod.fst written)
      apply leads_log
      apply leads_pure
      refine ⟨rfl, ?_, nofun⟩
      dsimp only [Option.getD_some]
      exact readBack

end

/-- A disk with a config for the workspace `a`. -/
def storedDisk (config : Document) : Disk where
  project := ⟨"/p"⟩
  files := ⟨[(["p"], .directory), (["p", "a"], .directory),
    (["p", "a", "tsconfig.json"], .file (.text (Json.obj config).contents))]⟩

theorem walk_storedDisk (config : Document) :
    (storedDisk config).files.walk "/p/a/tsconfig.json" = .ok ["p", "a", "tsconfig.json"] := by
  have parts : Path.parts "/p/a/tsconfig.json" = ["p", "a", "tsconfig.json"] := by decide +kernel
  have short : FileTree.isLongName "p" = false ∧ FileTree.isLongName "a" = false
      ∧ FileTree.isLongName "tsconfig.json" = false := by decide +kernel
  rw [FileTree.walk, if_neg (by decide +kernel), if_neg (by decide +kernel), parts]
  simp only [FileTree.walkFrom, short]
  rfl

theorem read_storedDisk {config : Document} (clean : Document.Clean config) :
    (storedDisk config).read (Workspace.configPath "a") = .ok (.obj config) := by
  have absolute : (Project.mk "/p").absolute (Workspace.configPath "a") = "/p/a/tsconfig.json" := by
    decide +kernel
  have resolved : (Project.mk "/p").resolved (Workspace.configPath "a")
      = ["p", "a", "tsconfig.json"] := by decide +kernel
  have holds : (storedDisk config).Holds (Workspace.configPath "a")
      (.text (Json.obj config).contents) := by
    constructor
    · change (storedDisk config).files.walk ((Project.mk "/p").absolute (Workspace.configPath "a"))
        = .ok ((Project.mk "/p").resolved (Workspace.configPath "a"))
      rw [absolute, resolved]
      exact walk_storedDisk config
    · change (storedDisk config).files.get? ((Project.mk "/p").resolved (Workspace.configPath "a")) = _
      rw [resolved]
      rfl
  exact holds.read clean

/-- Workspaces with names, directories of the root. -/
def registered (entries : Table String) : Registry where
  names := entries.map fun entry => (entry.2, entry.1)
  paths := entries

/-- A config that lists one reference and has no aliases. -/
def listingConfig : Document :=
  [("references", .arr [.obj [("path", .str "../b")]])]

theorem lists_listingConfig :
    Config.Lists listingConfig [("../b", .obj [("path", .str "../b")])] := by
  refine ⟨fun entry member => ?_, Or.inl rfl⟩
  rw [List.mem_singleton.mp member]
  exact ⟨_, rfl, rfl⟩

theorem clean_listingConfig : Document.Clean listingConfig := by
  have path : Document.Clean [("path", .str "../b")] :=
    Document.clean_empty.set "path" (.str "../b")
  refine Document.clean_empty.set "references" (.arr _ fun item member => ?_)
  rw [List.mem_singleton.mp member]
  exact Document.clean_obj.mpr path

theorem tables_listingConfig : Config.Tables listingConfig [] :=
  ⟨Or.inr ⟨rfl, rfl⟩⟩

end RefSync.Update
