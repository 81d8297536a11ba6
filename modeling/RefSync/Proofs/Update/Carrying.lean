/-
A rename that the registry has made, carried to the documents of all dependents. Which documents
these are is known before the first of them is read, and what each becomes depends on its text
alone, so the outcome is the same on every schedule, and doing it again finds nothing to do.
-/

import RefSync.Proofs.Config.Renamed
import RefSync.Proofs.Manifest.Dependencies
import RefSync.Proofs.Update.Aliased
import RefSync.Proofs.Update.Rewriting
import RefSync.Proofs.Watch.Updates

namespace RefSync

/-! ### A rename in the registry -/

/-- Whether a workspace goes by a name that depends on another one. -/
def Registry.DependsOn (registry : Registry) (name workspace : String) : Prop :=
  ∃ dependent stored, dependent ≠ name ∧ registry.findPath dependent = some workspace
    ∧ registry.dependencies.get? dependent = some stored ∧ name ∈ stored

/-- A workspace that got a name of which nothing was known. -/
structure FreshRename (path old new : String) (before after : Registry) : Prop where
  renamed : before.rename path new = .ok (after, old)
  inverse workspace name : before.findName workspace = some name ↔ before.findPath name = some workspace
  registered name : (before.dependencies.get? name).isSome → (before.findPath name).isSome
  once : before.dependencies.keys.Nodup
  free : before.findPath new = none
  unknown name stored : before.dependencies.get? name = some stored → new ∉ stored
  apart : Config.Apart old new

section

variable {path old new : String} {before after : Registry} (rename : FreshRename path old new before after)

include rename

theorem FreshRename.renames : Registry.Renames path old new before after :=
  Registry.rename_eq_ok rename.renamed

/-- Those that depend on the new name are those that depended on the old one. -/
theorem FreshRename.mem_dependentsOf (name : String) :
    name ∈ after.dependentsOf new
      ↔ name ≠ old ∧ ∃ stored, before.dependencies.get? name = some stored ∧ old ∈ stored := by
  have absent : before.dependencies.get? new = none := by
    rw [← Option.not_isSome_iff_eq_none]
    intro present
    have some := rename.registered new present
    rw [rename.free] at some
    cases some
  exact rename.renames.mem_dependentsOf_iff rename.once absent rename.unknown

/-- A dependent is where it was. -/
theorem FreshRename.located {name : String} (member : name ∈ after.dependentsOf new) :
    ∃ workspace, before.findPath name = some workspace ∧ after.findPath name = some workspace := by
  obtain ⟨notOld, stored, known, _⟩ := (rename.mem_dependentsOf name).mp member
  obtain ⟨workspace, found⟩ : ∃ workspace, before.findPath name = some workspace :=
    Option.isSome_iff_exists.mp (rename.registered name (by rw [known]; rfl))
  have notNew : name ≠ new := by
    rintro rfl
    rw [rename.free] at found
    cases found
  refine ⟨workspace, found, ?_⟩
  rw [rename.renames.findPath, if_neg notNew, if_neg notOld]
  exact found

/-- Every dependent is in some place. -/
theorem FreshRename.placed :
    ∃ workspaces, (after.dependentsOf new).mapM after.pathOf = .ok workspaces
      ∧ ∀ workspace, workspace ∈ workspaces ↔ before.DependsOn old workspace := by
  cases mapped : (after.dependentsOf new).mapM after.pathOf with
  | error problem =>
      obtain ⟨name, member, fails⟩ := mapM_eq_error mapped
      obtain ⟨workspace, _, found⟩ := rename.located member
      rw [Registry.pathOf, found] at fails
      cases fails
  | ok workspaces =>
      refine ⟨workspaces, rfl, fun workspace => ?_⟩
      rw [mem_mapM mapped]
      constructor
      · rintro ⟨name, member, path⟩
        obtain ⟨other, was, found⟩ := rename.located member
        obtain ⟨notOld, stored, known, depends⟩ := (rename.mem_dependentsOf name).mp member
        rw [Registry.pathOf, found] at path
        cases path
        exact ⟨name, stored, notOld, was, known, depends⟩
      · rintro ⟨name, stored, notOld, was, known, depends⟩
        have member := (rename.mem_dependentsOf name).mpr ⟨notOld, stored, known, depends⟩
        obtain ⟨other, wasThere, found⟩ := rename.located member
        rw [was] at wasThere
        cases wasThere
        refine ⟨name, member, ?_⟩
        rw [Registry.pathOf, found]

/-- No path is empty that was not before. -/
theorem FreshRename.filled (filled : ∀ name, before.findPath name ≠ some "") (name workspace : String)
    (found : after.findPath name = some workspace) : workspace ≠ "" := by
  rintro rfl
  rw [rename.renames.findPath] at found
  by_cases isNew : name = new
  · rw [if_pos isNew] at found
    cases found
    exact filled old ((rename.inverse "" old).mp rename.renames.findOld)
  · rw [if_neg isNew] at found
    split at found
    · cases found
    · exact filled name found

end

namespace Update

open Routine Path

/-! ### The plan -/

/-- The documents of some workspaces, with a name instead of another one. -/
def renamePlan (origin : Disk) (workspaces : List String) (old new : String) : Plan origin where
  rewrites one := ∃ workspace ∈ workspaces,
    RenamesManifest one workspace old new ∨ RenamesConfig one workspace old new
  agree := by
    rintro one other ⟨workspace, _, first⟩ ⟨beside, _, second⟩ alike
    have same : other.document = one.document :=
      Json.obj.inj (Disk.read_alike one.reads other.reads alike)
    have manifest {some workspace} (path : some = Workspace.manifestPath workspace) :
        (origin.project.resolved some).getLast? = .some manifestFile := by
      rw [path]
      exact origin.project.last_resolved (Workspace.last_manifestPath workspace) (by decide)
    have config {some workspace} (path : some = Workspace.configPath workspace) :
        (origin.project.resolved some).getLast? = .some configFile := by
      rw [path]
      exact origin.project.last_resolved (Workspace.last_configPath workspace) (by decide)
    rcases first with first | first <;> rcases second with second | second
    · have update := second.update
      rw [same, first.update] at update
      rw [Rewrite.target, Rewrite.target, same, update]
    · have last := config second.path
      rw [alike, manifest first.path] at last
      exact absurd last (by decide)
    · have last := manifest second.path
      rw [alike, config first.path] at last
      exact absurd last (by decide)
    · have update := second.update
      rw [same, first.update] at update
      rw [Rewrite.target, Rewrite.target, same, Except.ok.inj update]

/-- Whether the documents of a workspace are such that a rename can be carried to them. -/
structure Receives (disk : Disk) (workspace : String) : Prop where
  manifest : ∃ document, disk.read (Workspace.manifestPath workspace) = .ok (.obj document)
  config : ∃ found, disk.Finds? (Workspace.configPath workspace) found ∧ ∀ config, found = some config →
    ∃ entries aliases, Config.Lists config entries ∧ Config.Tables config aliases

section

variable {origin : Disk} {workspace old new : String} {workspaces : List String}

theorem covers_renamePlan (apart : Config.Apart old new) (member : workspace ∈ workspaces)
    (receives : Receives origin workspace) :
    (renamePlan origin workspaces old new).Covers workspace old new := by
  have cleanOf {path : String} {document : Document} (reads : origin.read path = .ok (.obj document)) :
      Document.Clean document := Document.clean_obj.mp (Disk.clean_of_read reads)
  constructor
  · obtain ⟨document, reads⟩ := receives.manifest
    have again := Manifest.rename_again apart.differs (cleanOf reads)
    have clean := (Manifest.renamed_rename apart.differs (cleanOf reads)).2
    let one : Rewrite origin := ⟨_, document, Manifest.renameDependency? document old new, reads, clean,
      manifestFile, Workspace.last_manifestPath workspace, by decide⟩
    have renames : RenamesManifest one workspace old new := ⟨rfl, rfl, again⟩
    exact ⟨one, ⟨workspace, member, Or.inl renames⟩, renames⟩
  · obtain ⟨found, finds, usable⟩ := receives.config
    cases found with
    | none => exact Or.inl finds
    | some config =>
        obtain ⟨entries, aliases, lists, tables⟩ := usable config rfl
        have update : ∃ update, renamedConfig? config (some (old, new)) = .ok update
            ∧ renamedConfig? (update.getD config) (some (old, new)) = .ok none := by
          by_cases bare : config.get? "references" = none
          · have nothing := Config.renamedConfig?_bare bare (some (old, new))
            exact ⟨none, nothing, nothing⟩
          · obtain ⟨update, updates, _, again⟩ :=
              Config.renamedConfig?_renames (cleanOf finds) lists tables apart bare
            exact ⟨update, updates, again⟩
        obtain ⟨update, updates, again⟩ := update
        have clean (updated : Document) (same : update = some updated) : Document.Clean updated :=
          (Config.revises_renamedConfig (same ▸ updates)).clean (cleanOf finds)
        let one : Rewrite origin := ⟨_, config, update, finds, clean, configFile,
          Workspace.last_configPath workspace, by decide⟩
        have renames : RenamesConfig one workspace old new := ⟨rfl, updates, again⟩
        exact Or.inr ⟨one, ⟨workspace, member, Or.inr renames⟩, renames⟩

end

/-! ### What becomes of the documents -/

/-- What became of the documents of a workspace. -/
structure Received (old new workspace : String) (before after : Disk) : Prop where
  manifest (document : Document) : before.read (Workspace.manifestPath workspace) = .ok (.obj document) →
    ∃ later, after.read (Workspace.manifestPath workspace) = .ok (.obj later)
      ∧ Manifest.Renamed document later old new
      ∧ ∀ field, (Manifest.table? later field).isSome = (Manifest.table? document field).isSome
        ∧ (Manifest.table? document field = none → Table.get? later field = Table.get? document field)
  absent shown : before.read (Workspace.configPath workspace) = .error (.missing shown) →
    after.read (Workspace.configPath workspace) = .error (.missing shown)
  bare (config : Document) : before.read (Workspace.configPath workspace) = .ok (.obj config) →
    config.get? "references" = none → after.read (Workspace.configPath workspace) = .ok (.obj config)
  listed (config : Document) (entries : Table Json) (aliases : Document) :
    before.read (Workspace.configPath workspace) = .ok (.obj config) →
    config.get? "references" ≠ none → Config.Lists config entries → Config.Tables config aliases →
    ∃ later, after.read (Workspace.configPath workspace) = .ok (.obj later)
      ∧ Config.Renamed old new entries aliases config later

section

variable {origin now : Engine × Disk} {workspace old new : String} {plan : Plan origin.2}
  {done : String → Prop} (apart : Config.Apart old new) (covers : plan.Covers workspace old new)
  (rewritten : Rewriting plan done now)
  (both : done (Workspace.manifestPath workspace) ∧ done (Workspace.configPath workspace))

include apart covers rewritten both

theorem received_of_rewriting : Received old new workspace origin.2 now.2 := by
  constructor
  · intro document reads
    have clean : Document.Clean document := Document.clean_obj.mp (Disk.clean_of_read reads)
    exact ⟨_, (rewritten.manifest covers both.1 reads).1,
      (Manifest.renamed_rename apart.differs clean).1, Manifest.rename_shape document⟩
  · intro shown missing
    exact rewritten.missing missing
  · intro config reads bare
    obtain ⟨update, updates, readsAfter, _⟩ := rewritten.config covers both.2 reads
    rw [Config.renamedConfig?_bare bare] at updates
    cases updates
    exact readsAfter
  · intro config entries aliases reads present lists tables
    obtain ⟨update, updates, readsAfter, _⟩ := rewritten.config covers both.2 reads
    have clean : Document.Clean config := Document.clean_obj.mp (Disk.clean_of_read reads)
    obtain ⟨same, sameUpdates, renamed, _⟩ :=
      Config.renamedConfig?_renames clean lists tables apart present
    rw [updates] at sameUpdates
    cases sameUpdates
    exact ⟨_, readsAfter, renamed⟩

omit apart in
/-- What was rewritten needs no update. -/
theorem update_of_rewriting (receives : Receives origin.2 workspace) {one : Rewrite now.2}
    (renames : RenamesManifest one workspace old new ∨ RenamesConfig one workspace old new) :
    one.update = none := by
  have read := one.reads
  rcases renames with renames | renames
  · obtain ⟨document, reads⟩ := receives.manifest
    obtain ⟨readsAfter, again⟩ := rewritten.manifest covers both.1 reads
    rw [renames.path, readsAfter] at read
    have same := Json.obj.inj (Except.ok.inj read)
    rw [← renames.update, ← same]
    exact again
  · obtain ⟨found, finds, _⟩ := receives.config
    rw [renames.path] at read
    cases found with
    | none =>
        obtain ⟨shown, missing⟩ := finds
        rw [rewritten.missing missing] at read
        cases read
    | some config =>
        obtain ⟨update, _, readsAfter, again⟩ := rewritten.config covers both.2 finds
        rw [readsAfter] at read
        have same := Json.obj.inj (Except.ok.inj read)
        have updates := renames.update
        rw [← same, again] at updates
        exact (Except.ok.inj updates).symm

end

section

variable {before after : Disk} {workspace old new : String}
  (received : Received old new workspace before after)

include received

/-- Documents to which a rename was carried can be carried another one to. -/
theorem Received.receives (receives : Receives before workspace) : Receives after workspace := by
  constructor
  · obtain ⟨document, reads⟩ := receives.manifest
    obtain ⟨later, readsAfter, _⟩ := received.manifest document reads
    exact ⟨later, readsAfter⟩
  · obtain ⟨found, finds, usable⟩ := receives.config
    cases found with
    | none =>
        obtain ⟨shown, missing⟩ := finds
        exact ⟨none, ⟨shown, received.absent shown missing⟩, nofun⟩
    | some config =>
        obtain ⟨entries, aliases, lists, tables⟩ := usable config rfl
        by_cases present : config.get? "references" = none
        · exact ⟨some config, received.bare config finds present, usable⟩
        · obtain ⟨later, readsAfter, renamed⟩ :=
            received.listed config entries aliases finds present lists tables
          obtain ⟨listed, listsAfter, _⟩ := renamed.listed
          obtain ⟨more, tablesAfter, _⟩ := renamed.aliases
          refine ⟨some later, readsAfter, ?_⟩
          rintro _ ⟨rfl⟩
          exact ⟨listed, more, listsAfter, tablesAfter⟩

end

/-! ### The rename as a whole -/

section

variable {path old new : String} {registry : Registry}

end

/-! ### A workspace that depends on another one -/

/-- The manifest of a workspace that depends on `a`. -/
def dependentManifest : Document :=
  [("name", .str "b"), ("dependencies", .obj [("a", .str "*")])]

/-- Its config, with a reference and its alias. -/
def dependentConfig : Document :=
  [("references", .arr [.obj [("path", .str "../a")]]),
    ("compilerOptions", .obj [("paths", .obj [("a", .arr [.str "../a"])])])]

def dependentDisk : Disk where
  project := ⟨"/p"⟩
  files := ⟨[(["p"], .directory), (["p", "b"], .directory),
    (["p", "b", "package.json"], .file (.text (Json.obj dependentManifest).contents)),
    (["p", "b", "tsconfig.json"], .file (.text (Json.obj dependentConfig).contents))]⟩

/-- The workspace `b` depends on `a`, and others have names. -/
def dependentRegistry (others : Table String) : Registry :=
  { registered (others ++ [("a", "a"), ("b", "b")]) with dependencies := [("b", ["a"])] }

/-- The same after `a` got another name. -/
def renamedRegistry (others : Table String) : Registry :=
  match (dependentRegistry others).rename "a" "a2" with
  | .ok (renamed, _) => renamed
  | .error _ => {}

theorem reads_dependentDisk :
    dependentDisk.read (Workspace.manifestPath "b") = .ok (.obj dependentManifest)
      ∧ dependentDisk.read (Workspace.configPath "b") = .ok (.obj dependentConfig) := by
  have cleanManifest : Document.Clean dependentManifest :=
    (Document.clean_empty.set "name" (.str "b")).set "dependencies"
      (Document.clean_obj.mpr (Document.clean_empty.set "a" (.str "*")))
  have single {value : Json} (clean : value.Clean) : (Json.arr [value]).Clean := by
    refine .arr _ fun item member => ?_
    rw [List.mem_singleton.mp member]
    exact clean
  have reference : Document.Clean [("path", .str "../a")] :=
    Document.clean_empty.set "path" (.str "../a")
  have aliases : Document.Clean [("a", .arr [.str "../a"])] :=
    Document.clean_empty.set "a" (single (.str "../a"))
  have options : Document.Clean [("paths", .obj [("a", .arr [.str "../a"])])] :=
    Document.clean_empty.set "paths" (Document.clean_obj.mpr aliases)
  have cleanConfig : Document.Clean dependentConfig :=
    (Document.clean_empty.set "references" (single (Document.clean_obj.mpr reference))).set
      "compilerOptions" (Document.clean_obj.mpr options)
  have manifestPath : dependentDisk.files.walk ((Project.mk "/p").absolute (Workspace.manifestPath "b"))
        = .ok ((Project.mk "/p").resolved (Workspace.manifestPath "b"))
      ∧ (Project.mk "/p").resolved (Workspace.manifestPath "b") = ["p", "b", "package.json"] := by
    decide +kernel
  have configPath : dependentDisk.files.walk ((Project.mk "/p").absolute (Workspace.configPath "b"))
        = .ok ((Project.mk "/p").resolved (Workspace.configPath "b"))
      ∧ (Project.mk "/p").resolved (Workspace.configPath "b") = ["p", "b", "tsconfig.json"] := by
    decide +kernel
  constructor
  · apply Disk.Holds.read _ cleanManifest
    refine ⟨manifestPath.1, ?_⟩
    change dependentDisk.files.get? ((Project.mk "/p").resolved (Workspace.manifestPath "b")) = _
    rw [manifestPath.2]
    rfl
  · apply Disk.Holds.read _ cleanConfig
    refine ⟨configPath.1, ?_⟩
    change dependentDisk.files.get? ((Project.mk "/p").resolved (Workspace.configPath "b")) = _
    rw [configPath.2]
    rfl

theorem lists_dependentConfig :
    Config.Lists dependentConfig [("../a", .obj [("path", .str "../a")])] := by
  refine ⟨?_, Or.inl rfl⟩
  intro entry member
  rw [List.mem_singleton.mp member]
  exact ⟨_, rfl, rfl⟩

theorem tables_dependentConfig : Config.Tables dependentConfig [("a", .arr [.str "../a"])] :=
  ⟨Or.inl rfl⟩

theorem receives_dependentDisk {others : Table String} {workspace : String}
    (given : others = [] ∨ others = [("top", "")])
    (depends : (dependentRegistry others).DependsOn "a" workspace) : Receives dependentDisk workspace := by
  obtain ⟨manifest, config⟩ := reads_dependentDisk
  have own : workspace = "b" := by
    obtain ⟨name, stored, _, placed, known, _⟩ := depends
    rw [dependentRegistry, Table.get?_cons] at known
    split at known
    · rename_i same
      rw [same] at placed
      rcases given with rfl | rfl
      · exact (Option.some.inj placed).symm
      · exact (Option.some.inj placed).symm
    · cases known
  rw [own]
  refine ⟨⟨_, manifest⟩, some dependentConfig, config, ?_⟩
  rintro _ ⟨rfl⟩
  exact ⟨_, _, lists_dependentConfig, tables_dependentConfig⟩

theorem registered_inverse {entries : Table String} (names : entries.keys.Nodup)
    (paths : (entries.map (·.2)).Nodup) (workspace name : String) :
    (registered entries).findName workspace = some name
      ↔ (registered entries).findPath name = some workspace := by
  have once : Table.keys (registered entries).names = entries.map (·.2) := by
    rw [registered, Table.keys, List.map_map]
    rfl
  rw [Registry.findName, Registry.findPath, Table.get?_eq_some_iff (once ▸ paths)]
  change _ ↔ Table.get? entries name = some workspace
  rw [Table.get?_eq_some_iff names, registered, List.mem_map]
  constructor
  · rintro ⟨entry, member, same⟩
    cases same
    exact member
  · exact fun member => ⟨_, member, rfl⟩

theorem freshRename_dependentRegistry {others : Table String}
    (given : others = [] ∨ others = [("top", "")]) :
    FreshRename "a" "a" "a2" (dependentRegistry others) (renamedRegistry others)
      ∧ (renamedRegistry others).dependentsOf "a2" = ["b"] := by
  have apart : Config.Apart "a" "a2" := ⟨by decide, by decide, by decide⟩
  have known {name : String} {stored : TextSet}
      (found : (dependentRegistry others).dependencies.get? name = some stored) :
      name = "b" ∧ stored = ["a"] := by
    rw [dependentRegistry, Table.get?_cons] at found
    split at found
    · cases found
      exact ⟨‹_›, rfl⟩
    · cases found
  have registered name (some : ((dependentRegistry others).dependencies.get? name).isSome) :
      ((dependentRegistry others).findPath name).isSome := by
    obtain ⟨stored, found⟩ := Option.isSome_iff_exists.mp some
    rw [(known found).1]
    rcases given with rfl | rfl <;> decide
  have unknown name stored
      (found : (dependentRegistry others).dependencies.get? name = some stored) : "a2" ∉ stored := by
    rw [(known found).2]
    decide
  rcases given with rfl | rfl
  · exact ⟨⟨rfl, registered_inverse (by decide) (by decide), registered, by decide, by decide, unknown,
      apart⟩, by decide +kernel⟩
  · exact ⟨⟨rfl, registered_inverse (by decide) (by decide), registered, by decide, by decide, unknown,
      apart⟩, by decide +kernel⟩

end Update
end RefSync
