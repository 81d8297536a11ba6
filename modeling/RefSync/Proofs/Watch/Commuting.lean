/-
Artifacts of different workspaces. What the event of an artifact makes of the registry and the files
is told by what was there before any of them: the names that another artifact refers to, and the
documents of another workspace, are nothing it looks at. So the order of the events does not matter.
-/

import RefSync.Proofs.Routine.Alone
import RefSync.Proofs.Watch.Aggregate
import RefSync.Proofs.Watch.Discovery
import RefSync.Proofs.Watch.Settling
import RefSync.Proofs.Watch.Synchronized

namespace RefSync

open Routine Path

/-- Whether two registries say the same. What has been reported is a set. -/
structure Registry.Same (first second : Registry) : Prop where
  rest : second = { first with reported := second.reported }
  reported command : command ∈ second.reported ↔ command ∈ first.reported

theorem Registry.Same.refl (registry : Registry) : registry.Same registry :=
  ⟨rfl, fun _ => Iff.rfl⟩

theorem Registry.Same.trans {first second third : Registry} (one : first.Same second)
    (two : second.Same third) : first.Same third := by
  refine ⟨?_, fun command => (two.reported command).trans (one.reported command)⟩
  rw [two.rest, one.rest]

namespace Watch

/-! ### What artifacts make of a registry -/

/-- What an artifact tells about its workspace, and the manifest that it is compared with. -/
structure Account where
  name : String
  stored : TextSet
  discovered : List String
  manifest : Document

/-- What becomes of the event of an artifact: one that is there is missing no longer, and where the
workspace is ready it is brought in line. -/
structure Turn where
  present? : Option String := none
  account? : Option Account := none

namespace Turn

def dependencies (turn : Turn) (table : Table TextSet) : Table TextSet :=
  match turn.account? with
  | some account => table.set account.name (distinct account.discovered)
  | none => table

def missing (turn : Turn) (paths : TextSet) : TextSet :=
  match turn.present? with
  | some path => paths.remove path
  | none => paths

def reported (options : SyncOptions) (turn : Turn) (commands : TextSet) : TextSet :=
  match turn.account? with
  | some account =>
      announced options account.name (sortTexts (redundantItems account.stored account.discovered))
        commands
  | none => commands

/-- The registry after an event. -/
def apply (options : SyncOptions) (turn : Turn) (registry : Registry) : Registry :=
  { registry with
    dependencies := turn.dependencies registry.dependencies
    missingArtifacts := turn.missing registry.missingArtifacts
    reported := turn.reported options registry.reported }

/-- The names whose dependencies become known. -/
def names (turns : List Turn) : List String :=
  turns.filterMap fun turn => turn.account?.map (·.name)

/-- The registry after some events. -/
def applyAll (options : SyncOptions) (turns : List Turn) (registry : Registry) : Registry :=
  turns.foldl (fun registry turn => turn.apply options registry) registry

section

variable {options : SyncOptions} {registry other : Registry} {turn next : Turn}

theorem dependencies_comm {table : Table TextSet}
    (differ : ∀ one ∈ turn.account?, ∀ two ∈ next.account?, one.name ≠ two.name)
    (known : ∀ account ∈ turn.account?, account.name ∈ table.keys) :
    next.dependencies (turn.dependencies table) = turn.dependencies (next.dependencies table) := by
  unfold dependencies
  cases first : turn.account? with
  | none => rfl
  | some one =>
      cases second : next.account? with
      | none => rfl
      | some two => exact Table.set_comm (differ one first two second) (known one first) _ _

theorem missing_comm (paths : TextSet) :
    next.missing (turn.missing paths) = turn.missing (next.missing paths) := by
  unfold missing TextSet.remove
  cases turn.present? with
  | none => rfl
  | some one =>
      cases next.present? with
      | none => rfl
      | some two => exact List.filter_comm ..

/-- What is reported in the course of an event. -/
def Reports (options : SyncOptions) (turn : Turn) (command : String) : Prop :=
  ∃ account ∈ turn.account?, (!(sortTexts (redundantItems account.stored account.discovered)).isEmpty
      && !options.pruneRedundant && options.showRedundant) = true
    ∧ command = Manifest.uninstallCommand account.name
      (sortTexts (redundantItems account.stored account.discovered))

theorem mem_reported {commands : TextSet} {command : String} :
    command ∈ turn.reported options commands ↔ command ∈ commands ∨ Reports options turn command := by
  unfold reported Reports
  cases turn.account? with
  | none =>
      refine ⟨Or.inl, fun either => either.resolve_right ?_⟩
      rintro ⟨_, none, _⟩
      cases none
  | some account =>
      simp only [Option.mem_def, Option.some.injEq, exists_eq_left', announced]
      split
      · rename_i reports
        rw [TextSet.mem_insert, and_iff_right reports, or_comm]
      · rename_i silent
        exact ⟨Or.inl, fun either => either.resolve_right fun reports => silent reports.1⟩

theorem apply_comm
    (differ : ∀ one ∈ turn.account?, ∀ two ∈ next.account?, one.name ≠ two.name)
    (known : ∀ account ∈ turn.account?, account.name ∈ registry.dependencies.keys) :
    Registry.Same (next.apply options (turn.apply options registry))
      (turn.apply options (next.apply options registry)) := by
  constructor
  · unfold apply
    dsimp only
    rw [dependencies_comm differ known, missing_comm]
  · intro command
    change command ∈ turn.reported options (next.reported options registry.reported)
      ↔ command ∈ next.reported options (turn.reported options registry.reported)
    rw [mem_reported, mem_reported, mem_reported, mem_reported, or_right_comm]

theorem apply_same (same : registry.Same other) :
    (turn.apply options registry).Same (turn.apply options other) := by
  constructor
  · rw [same.rest]
    rfl
  · intro command
    change command ∈ turn.reported options other.reported
      ↔ command ∈ turn.reported options registry.reported
    rw [mem_reported, mem_reported, same.reported]

theorem applyAll_same (turns : List Turn) (same : registry.Same other) :
    (applyAll options turns registry).Same (applyAll options turns other) := by
  induction turns generalizing registry other with
  | nil => exact same
  | cons turn rest ih => exact ih (apply_same same)

theorem mem_keys_apply (known : ∀ account ∈ turn.account?, account.name ∈ registry.dependencies.keys)
    (name : String) : name ∈ (turn.apply options registry).dependencies.keys
      ↔ name ∈ registry.dependencies.keys := by
  unfold apply dependencies
  dsimp only
  cases found : turn.account? with
  | none => rfl
  | some account => rw [Table.keys_set, if_pos (known account found)]

theorem mem_names {turns : List Turn} {name : String} :
    name ∈ names turns ↔ ∃ turn ∈ turns, ∃ account ∈ turn.account?, account.name = name := by
  simp only [names, List.mem_filterMap, Option.map_eq_some_iff, Option.mem_def]

/-- The order of events about different names does not matter. -/
theorem applyAll_perm {turns others : List Turn} (perm : turns.Perm others)
    (once : (names turns).Nodup) (known : ∀ name ∈ names turns, name ∈ registry.dependencies.keys) :
    (applyAll options turns registry).Same (applyAll options others registry) := by
  induction perm generalizing registry with
  | nil => exact .refl registry
  | cons turn _ ih =>
      have knownFirst : ∀ account ∈ turn.account?, account.name ∈ registry.dependencies.keys :=
        fun account found =>
          known _ (mem_names.mpr ⟨turn, List.mem_cons_self, account, found, rfl⟩)
      refine ih (once.sublist ((List.sublist_cons_self turn _).filterMap _)) fun name member => ?_
      obtain ⟨later, present, told⟩ := mem_names.mp member
      exact (mem_keys_apply knownFirst name).mpr
        (known name (mem_names.mpr ⟨later, List.mem_cons_of_mem _ present, told⟩))
  | swap next turn rest =>
      refine applyAll_same rest (apply_comm (fun one found two other same => ?_) fun account found =>
        known _ (mem_names.mpr ⟨turn, List.mem_cons_self, account, found, rfl⟩))
      have both : names (turn :: next :: rest) = one.name :: two.name :: names rest := by
        rw [Option.mem_def] at found other
        simp only [names, List.filterMap_cons, found, other, Option.map_some]
      rw [both, same] at once
      exact (List.nodup_cons.mp once).1 List.mem_cons_self
  | trans one _ first second =>
      have perm := one.filterMap fun turn => turn.account?.map (·.name)
      refine (first once known).trans (second (perm.nodup_iff.mp once) fun name member => ?_)
      exact known name (perm.mem_iff.mpr member)

/-- Other names keep their dependencies. -/
theorem get?_applyAll {turns : List Turn} {name : String} (other : name ∉ names turns) :
    (applyAll options turns registry).dependencies.get? name = registry.dependencies.get? name := by
  induction turns generalizing registry with
  | nil => rfl
  | cons turn rest ih =>
      have later : name ∉ names rest := fun member => by
        obtain ⟨next, present, told⟩ := mem_names.mp member
        exact other (mem_names.mpr ⟨next, List.mem_cons_of_mem _ present, told⟩)
      refine (ih later).trans ?_
      unfold apply dependencies
      dsimp only
      cases found : turn.account? with
      | none => rfl
      | some account =>
          refine (Table.get?_set ..).trans (if_neg fun same => other ?_)
          exact mem_names.mpr ⟨turn, List.mem_cons_self, account, found, same.symm⟩

/-- Nothing but dependencies and reports is touched. -/
theorem applyAll_eq (turns : List Turn) :
    applyAll options turns registry = { registry with
      dependencies := (applyAll options turns registry).dependencies
      missingArtifacts := (applyAll options turns registry).missingArtifacts
      reported := (applyAll options turns registry).reported } := by
  induction turns generalizing registry with
  | nil => rfl
  | cons turn rest ih => exact ih

/-- An artifact that is there, of a workspace that is not ready or that is brought in line. -/
theorem apply_noticed (change : Change) (path : String) :
    apply options { present? := if change = .create then some path else none } registry
      = noticed change path registry := by
  cases change with
  | create => rfl
  | update => rfl
  | delete => rfl

theorem apply_learned (change : Change) (path : String) (account : Account) :
    apply options { present? := if change = .create then some path else none, account? := account }
        registry
      = learned options account.name account.stored account.discovered
        (noticed change path registry) := by
  cases change with
  | create => rfl
  | update => rfl
  | delete => rfl

end

end Turn

/-! ### What artifacts make of a state -/

attribute [local irreducible] start dispatch

/-- The event of the artifact of a workspace whose documents can all be used. -/
structure Announces (project : Project) (disk : Disk) (workspace : String) (event : Event) : Prop where
  relative : project.IsRelative workspace
  present : event.change ≠ .delete
  path : project.relative event.path = project.relative (Workspace.artifactPath workspace)
  finds : ∃ artifact manifest config entries, Finds workspace artifact manifest config entries disk

/-- What the artifact of a workspace that is ready tells about it. -/
def account? (project : Project) (origin : Engine × Disk) (workspace : String) : Option Account :=
  if origin.1.registry.isReady workspace then do
    let name ← origin.1.registry.findName workspace
    let stored ← origin.1.registry.dependencies.get? name
    let value ← (origin.2.read (Workspace.artifactPath workspace)).toOption
    let artifact ← (Artifact.validate value).toOption
    let manifest ← (origin.2.read (Workspace.manifestPath workspace)).toOption.bind Json.members?
    return ⟨name, stored, discoveredNames project origin.1.registry (Workspace.artifactPath workspace)
      name artifact, manifest⟩
  else none

/-- What becomes of the event of an artifact in some state. -/
def turn (project : Project) (origin : Engine × Disk) (notice : String × Event) : Turn :=
  if classify project origin.1.registry notice.2.path = some .artifact then
    { present? :=
        if notice.2.change = .create then some (Workspace.artifactPath notice.1) else none
      account? := account? project origin notice.1 }
  else {}

/-- Whether a place is that of a document which an event may change. -/
def Touches (project : Project) (origin : Engine × Disk) (notice : String × Event) (place : Place) : Prop :=
  (turn project origin notice).account?.isSome ∧ DocumentPlace project notice.1 place

/-- What some events have made of a state. -/
structure Tally (project : Project) (options : SyncOptions) (origin : Engine × Disk)
    (done : List (String × Event)) (now : Engine × Disk) : Prop where
  registry : now.1.registry
    = Turn.applyAll options (done.map (turn project origin)) origin.1.registry
  same : now.2.project = project
  files : FileTree.Alters (fun place => ∃ notice ∈ done, Touches project origin notice place)
    origin.2.files now.2.files
  rewrites : ∀ notice ∈ done, ∀ account ∈ (turn project origin notice).account?,
    Rewrites project origin.1.registry notice.1 account.discovered
      (missingNames account.stored account.discovered)
      (prunedNames options account.stored account.discovered) account.manifest origin.2 now.2

section

variable {project : Project} {options : SyncOptions} {origin now : Engine × Disk}
  {workspace name : String} {event : Event}

theorem account_of_finds {stored : TextSet} {artifact : Artifact} {manifest config : Document}
    {entries : Table Json} (knows : Knows workspace name stored origin.1.registry)
    (finds : Finds workspace artifact manifest config entries origin.2) :
    account? project origin workspace = some ⟨name, stored, discoveredNames project origin.1.registry
      (Workspace.artifactPath workspace) name artifact, manifest⟩ := by
  obtain ⟨value, reads, valid⟩ := finds.readArtifact
  have remembers : origin.1.registry.dependencies.get? name = some stored := by
    have held := knows.dependencies
    unfold Registry.dependenciesOf at held
    split at held
    · cases held
      assumption
    · cases held
  simp only [account?, knows.ready, if_true, knows.named, Option.bind_eq_bind, Option.bind_some,
    remembers, reads, valid, finds.readManifest, Except.toOption, Json.members?, Option.pure_def]

/-- An account is one of a workspace that has its name and its dependencies. -/
theorem of_account {account : Account} (found : account? project origin workspace = some account) :
    origin.1.registry.isReady workspace = true
      ∧ origin.1.registry.findName workspace = some account.name
      ∧ account.name ∈ origin.1.registry.dependencies.keys := by
  unfold account? at found
  split at found
  · rename_i ready
    simp only [Option.bind_eq_bind, Option.bind_eq_some_iff, Option.pure_def,
      Option.some.injEq] at found
    obtain ⟨name, named, stored, held, _, _, _, _, _, _, rfl⟩ := found
    exact ⟨ready, named, Table.mem_keys_iff.mpr (by rw [held]; rfl)⟩
  · cases found

theorem account_of_turn {notice : String × Event} {account : Account}
    (found : (turn project origin notice).account? = some account) :
    account? project origin notice.1 = some account := by
  unfold turn at found
  split at found
  · exact found
  · cases found

section

variable {registry : Registry} {discovered missing pruned : List String} {manifest : Document}
  {before after : Disk}

/-- What becomes of the documents of a workspace does not depend on other files. -/
theorem Rewrites.framed {first last : Disk}
    (rewrites : Rewrites project registry workspace discovered missing pruned manifest before after)
    (earlier : ∀ place, DocumentPlace project workspace place →
      before.files.get? place = first.files.get? place)
    (later : ∀ place, DocumentPlace project workspace place →
      last.files.get? place = after.files.get? place)
    (reads : ∀ config, first.read (Workspace.configPath workspace) = .ok (.obj config) →
      before.read (Workspace.configPath workspace) = .ok (.obj config)) :
    Rewrites project registry workspace discovered missing pruned manifest first last := by
  constructor
  · rw [later _ (Or.inl rfl), rewrites.manifest, earlier _ (Or.inl rfl)]
  · intro config aliases update found resolved made
    rw [later _ (Or.inr rfl), rewrites.config config aliases update (reads config found) resolved made,
      earlier _ (Or.inr rfl)]

/-- Documents that become something become the same. -/
theorem Rewrites.agree {one other : Disk} {artifact : Artifact} {found config : Document}
    {entries : Table Json}
    (first : Rewrites project registry workspace discovered missing pruned manifest before one)
    (second : Rewrites project registry workspace discovered missing pruned manifest before other)
    (filled : ∀ name path, registry.findPath name = some path → path ≠ "")
    (finds : Finds workspace artifact found config entries before) {place : Place}
    (mine : DocumentPlace project workspace place) :
    one.files.get? place = other.files.get? place := by
  rcases mine with rfl | rfl
  · rw [first.manifest, second.manifest]
  · obtain ⟨aliases, targets, _⟩ := Update.targetAliases_ok filled workspace discovered
    obtain ⟨update, updates, _⟩ := Config.updateReferences?_ok finds.lists
      (Document.clean_obj.mp (Disk.clean_of_read finds.readConfig))
      (fun path member => Table.mem_keys_iff.mp member : ∀ path ∈ aliases.keys, (aliases.get? path).isSome)
    rw [first.config _ _ _ finds.readConfig targets updates,
      second.config _ _ _ finds.readConfig targets updates]

end

/-- The workspaces of some events, other than a further one. -/
def Others (project : Project) (done : List (String × Event)) (workspace : String) : Prop :=
  ∀ notice ∈ done, project.IsRelative notice.1 ∧ notice.1 ≠ workspace

section

variable {done : List (String × Event)} (tally : Tally project options origin done now)

include tally

theorem Tally.names_eq : now.1.registry.names = origin.1.registry.names := by
  rw [tally.registry, Turn.applyAll_eq]

theorem Tally.paths_eq : now.1.registry.paths = origin.1.registry.paths := by
  rw [tally.registry, Turn.applyAll_eq]

theorem Tally.manifests_eq : now.1.registry.manifests = origin.1.registry.manifests := by
  rw [tally.registry, Turn.applyAll_eq]

theorem Tally.isReady_eq : now.1.registry.isReady workspace = origin.1.registry.isReady workspace := by
  rw [tally.registry, Turn.applyAll_eq]
  rfl

theorem Tally.classify_eq (path : String) :
    classify project now.1.registry path = classify project origin.1.registry path := by
  rw [tally.registry, Turn.applyAll_eq]
  rfl

variable (others : Others project done workspace)

include others

/-- A workspace whose event is still to come is known as before. -/
theorem Tally.knows {stored : TextSet} (sound : origin.1.registry.Sound project)
    (knows : Knows workspace name stored origin.1.registry) :
    Knows workspace name stored now.1.registry := by
  have other : name ∉ Turn.names (done.map (turn project origin)) := by
    intro member
    obtain ⟨_, present, account, told, rfl⟩ := Turn.mem_names.mp member
    obtain ⟨notice, inDone, rfl⟩ := List.mem_map.mp present
    have named := (of_account (account_of_turn told)).2.1
    have held := (sound.inverse _ _).mp knows.named
    rw [(sound.inverse _ _).mp named, Option.some.injEq] at held
    exact (others notice inDone).2 held
  rw [tally.registry, Turn.applyAll_eq]
  refine { knows with dependencies := ?_ }
  unfold Registry.dependenciesOf
  dsimp only
  rw [Turn.get?_applyAll other]
  exact knows.dependencies

variable (relative : project.IsRelative workspace)

include relative

/-- The documents of a workspace whose event is still to come are as they were. -/
theorem Tally.untouched {place : Place} (mine : DocumentPlace project workspace place) :
    now.2.files.get? place = origin.2.files.get? place := by
  refine tally.files.apart ?_
  rintro ⟨notice, member, _, theirs⟩
  obtain ⟨otherRelative, differ⟩ := others notice member
  exact documentPlace_apart relative otherRelative differ mine theirs

theorem Tally.finds {artifact : Artifact} {manifest config : Document} {entries : Table Json}
    (same : origin.2.project = project)
    (finds : Finds workspace artifact manifest config entries origin.2) :
    Finds workspace artifact manifest config entries now.2 := by
  refine finds.keeps (tally.same.trans same.symm) tally.files.keeps ?_ fun place mine => ?_
  · rw [same]
    rintro ⟨notice, member, _, theirs⟩
    exact artifactPlace_apart project relative.spelled.stem (others notice member).1.spelled.stem theirs
  · rw [same] at mine
    rintro ⟨notice, member, _, theirs⟩
    obtain ⟨otherRelative, differ⟩ := others notice member
    exact documentPlace_apart relative otherRelative differ mine theirs

/-- One more event. -/
theorem Tally.next {later : Engine × Disk} {event : Event} (same : later.2.project = project)
    (registry : later.1.registry
      = (turn project origin (workspace, event)).apply options now.1.registry)
    (files : FileTree.Alters (Touches project origin (workspace, event)) now.2.files later.2.files)
    (rewrites : ∀ account ∈ (turn project origin (workspace, event)).account?,
      Rewrites project origin.1.registry workspace account.discovered
        (missingNames account.stored account.discovered)
        (prunedNames options account.stored account.discovered) account.manifest origin.2 later.2) :
    Tally project options origin (done ++ [(workspace, event)]) later := by
  refine ⟨?_, same, ?_, fun notice member account told => ?_⟩
  · rw [registry, tally.registry, List.map_append, Turn.applyAll, Turn.applyAll, List.foldl_append]
    rfl
  · refine (tally.files.weaken fun place => ?_).trans (files.weaken fun place touches => ?_)
    · rintro ⟨notice, member, touches⟩
      exact ⟨notice, List.mem_append_left _ member, touches⟩
    · exact ⟨_, List.mem_append_right _ List.mem_cons_self, touches⟩
  · rcases List.mem_append.mp member with before | last
    · obtain ⟨otherRelative, differ⟩ := others notice before
      refine (tally.rewrites notice before account told).framed (fun _ _ => rfl) (fun place mine => ?_)
        fun _ => id
      refine files.apart fun touches => ?_
      exact documentPlace_apart otherRelative relative (Ne.symm differ) mine touches.2
    · cases List.mem_singleton.mp last
      exact rewrites account told

end

/-- The event of an artifact of a workspace that is not ready only says that the artifact is there. -/
theorem leads_handle_unready (stem : IsStem workspace)
    (unready : now.1.registry.isReady workspace = false) {change : Change} (present : change ≠ .delete) :
    Leads Disk.alone (handle project options .artifact change (Workspace.artifactPath workspace)) now
      fun result later => result = .ok ()
        ∧ later.1.registry = noticed change (Workspace.artifactPath workspace) now.1.registry
        ∧ later.2 = now.2 := by
  intro start
  refine meets_handle_present present fun records => ?_
  obtain ⟨missing, marks⟩ := noticed_eq change (Workspace.artifactPath workspace) now.1.registry
  have still : (noticed change (Workspace.artifactPath workspace) now.1.registry).isReady workspace
      = false := by
    rw [marks]
    exact unready
  unfold artifactWritten
  dsimp only
  rw [meets_registry, Workspace.ofArtifact_artifactPath stem, still]
  exact ⟨rfl, rfl, rfl⟩

/-- An event is taken for that of an artifact where the artifact is watched, and for nothing
otherwise. -/
theorem classify_announced (sound : origin.1.registry.Sound project)
    (announces : Announces project origin.2 workspace event) :
    classify project origin.1.registry event.path = none
      ∨ classify project origin.1.registry event.path = some .artifact
        ∧ Workspace.IsApart project workspace
        ∧ project.relative event.path = Workspace.artifactPath workspace
        ∧ Workspace.artifactPath workspace ∈ origin.1.registry.artifacts := by
  have relative := announces.relative
  rw [classify, announces.path]
  by_cases apart : Workspace.IsApart project workspace
  · rw [(Workspace.relative_artifactPath relative).mpr apart, classify_artifactPath sound relative]
    split
    · rename_i watched
      exact Or.inr ⟨rfl, apart, rfl, List.contains_iff_mem.mp watched⟩
    · exact Or.inl rfl
  · exact Or.inl (classify_of_not_apart sound relative apart)

section

variable {done : List (String × Event)} (tally : Tally project options origin done now)
  (others : Others project done workspace) (announces : Announces project origin.2 workspace event)

include tally others announces

theorem leads_turn_unclassified (unclassified : classify project origin.1.registry event.path = none) :
    Leads Disk.alone (dispatch project options event) now fun result later =>
      result = .ok () ∧ Tally project options origin (done ++ [(workspace, event)]) later := by
  have idle : turn project origin (workspace, event) = {} := by
    rw [turn, unclassified]
    rfl
  apply (leads_dispatch_ignored ((tally.classify_eq _).trans unclassified)).weaken
  rintro _ later ⟨ok, rfl⟩
  refine ⟨ok, tally.next others announces.relative tally.same ?_ (.refl _ _) ?_⟩
  · rw [idle]
    rfl
  · rw [idle]
    rintro account ⟨⟩

variable (classified : classify project origin.1.registry event.path = some .artifact)

include classified

/-- Where the workspace is not ready, only the artifact is known to be there. -/
theorem leads_turn_unready (path : project.relative event.path = Workspace.artifactPath workspace)
    (unready : origin.1.registry.isReady workspace = false) :
    Leads Disk.alone (dispatch project options event) now fun result later =>
      result = .ok () ∧ Tally project options origin (done ++ [(workspace, event)]) later := by
  have relative := announces.relative
  have silent : account? project origin workspace = none := by
    rw [account?, unready]
    rfl
  have turns : turn project origin (workspace, event) = {
      present? := if event.change = .create then some (Workspace.artifactPath workspace) else none
      account? := none } := silent ▸ if_pos classified
  have handles : Leads Disk.alone (handle project options .artifact event.change
      (project.relative event.path)) now fun result later => result = .ok ()
        ∧ later.1.registry = noticed event.change (Workspace.artifactPath workspace) now.1.registry
        ∧ later.2 = now.2 := by
    rw [path]
    exact leads_handle_unready relative.spelled.stem (tally.isReady_eq.trans unready) announces.present
  apply (leads_dispatch ((tally.classify_eq _).trans classified) handles).weaken
  rintro result later (⟨ok, _, registry, disk⟩ | ⟨failure, _, ⟨failed, _⟩, _⟩)
  · refine ⟨ok, tally.next others relative (disk ▸ tally.same) ?_ (disk ▸ .refl _ _) ?_⟩
    · rw [registry, turns, Turn.apply_noticed]
    · rw [turns]
      rintro account ⟨⟩
  · cases failed

/-- Where the workspace is ready, its names are learned and its documents follow. -/
theorem leads_turn_ready (orderly : origin.1.Orderly project False [])
    (same : origin.2.project = project) (apart : Workspace.IsApart project workspace)
    (watched : Workspace.artifactPath workspace ∈ origin.1.registry.artifacts)
    (ready : origin.1.registry.isReady workspace = true) :
    Leads Disk.alone (dispatch project options event) now fun result later =>
      result = .ok () ∧ Tally project options origin (done ++ [(workspace, event)]) later := by
  have sound := orderly.sound
  have relative := announces.relative
  obtain ⟨artifact, manifest, config, entries, finds⟩ := announces.finds
  obtain ⟨name, named⟩ := Option.isSome_iff_exists.mp (sound.named_of_ready ready)
  obtain ⟨_, stored, knows⟩ := knows_of_orderly orderly ready named watched
  let discovered := discoveredNames project origin.1.registry (Workspace.artifactPath workspace)
    name artifact
  have told : account? project origin workspace = some ⟨name, stored, discovered, manifest⟩ :=
    account_of_finds knows finds
  have turns : turn project origin (workspace, event) = {
      present? := if event.change = .create then some (Workspace.artifactPath workspace) else none
      account? := some ⟨name, stored, discovered, manifest⟩ } := told ▸ if_pos classified
  have discovers : discoveredNames project now.1.registry (Workspace.artifactPath workspace) name
      artifact = discovered := discoveredNames_eq tally.names_eq tally.manifests_eq ..
  have aliases : Update.targetAliases project now.1.registry
      = Update.targetAliases project origin.1.registry := by
    funext owner names
    unfold Update.targetAliases Registry.findPath
    rw [tally.paths_eq]
  intro start
  refine meets_dispatch_learned relative apart tally.same (tally.knows others sound knows)
    (tally.finds others relative same finds) announces.present announces.path
    fun later learns synchronizes => ⟨rfl, ?_⟩
  rw [discovers] at learns synchronizes
  refine tally.next others relative (synchronizes.same.trans tally.same) ?_ ?_ ?_
  · rw [learns, turns, Turn.apply_learned]
  · refine synchronizes.files.weaken fun place mine => ⟨?_, mine⟩
    rw [turns]
    rfl
  · rw [turns]
    rintro account ⟨⟩
    have rewrites := synchronizes.rewrites
    have own : Rewrites project origin.1.registry workspace discovered
        (missingNames stored discovered) (prunedNames options stored discovered) manifest now.2
        later.2 := ⟨rewrites.manifest, aliases ▸ rewrites.config⟩
    exact own.framed (fun place => tally.untouched others relative) (fun _ _ => rfl) fun other reads => by
      rw [finds.readConfig] at reads
      cases reads
      exact (tally.finds others relative same finds).readConfig

end

/-- One more event is handled in line with what was there before any. -/
theorem leads_turn (orderly : origin.1.Orderly project False []) (same : origin.2.project = project)
    {done : List (String × Event)} (tally : Tally project options origin done now)
    (others : Others project done workspace) (announces : Announces project origin.2 workspace event) :
    Leads Disk.alone (dispatch project options event) now fun result later =>
      result = .ok () ∧ Tally project options origin (done ++ [(workspace, event)]) later := by
  rcases classify_announced orderly.sound announces with
    unclassified | ⟨classified, apart, path, watched⟩
  · exact leads_turn_unclassified tally others announces unclassified
  · cases ready : origin.1.registry.isReady workspace with
    | false => exact leads_turn_unready tally others announces classified path ready
    | true =>
        exact leads_turn_ready tally others announces classified orderly same apart watched ready

end

/-- Whether events that are handled one after another all end without a failure, on every schedule,
and as they should. -/
def CompletesInTurn (project : Project) (options : SyncOptions) :
    List Event → Engine × Disk → (Engine × Disk → Prop) → Prop
  | [], now, post => post now
  | event :: events, now, post =>
      Completes Disk.alone (dispatch project options event) now fun later =>
        CompletesInTurn project options events later post

section

variable {project : Project} {options : SyncOptions} {origin now : Engine × Disk}

/-- Some events after others, each of a workspace of its own. -/
theorem Tally.completes (orderly : origin.1.Orderly project False []) (same : origin.2.project = project)
    {done rest : List (String × Event)} (tally : Tally project options origin done now)
    (relative : ∀ notice ∈ done, project.IsRelative notice.1)
    (once : ((done ++ rest).map (·.1)).Nodup)
    (announces : ∀ notice ∈ rest, Announces project origin.2 notice.1 notice.2)
    {post : Engine × Disk → Prop}
    (ends : ∀ later, Tally project options origin (done ++ rest) later → post later) :
    CompletesInTurn project options (rest.map (·.2)) now post := by
  induction rest generalizing done now with
  | nil => exact ends now (by rwa [List.append_nil])
  | cons notice rest ih =>
      have split : done ++ notice :: rest = (done ++ [notice]) ++ rest := by
        rw [List.append_assoc]
        rfl
      have announced := announces notice List.mem_cons_self
      have others : Others project done notice.1 := fun other member => by
        refine ⟨relative other member, fun same => ?_⟩
        rw [List.map_append, List.nodup_append] at once
        exact once.2.2 other.1 (List.mem_map_of_mem member) notice.1 (List.mem_map_of_mem List.mem_cons_self)
          same
      rw [split] at once ends
      apply Leads.completes
      apply (leads_turn orderly same tally others announced).weaken
      rintro _ later ⟨ok, next⟩
      refine ⟨ok, ih next (fun other member => ?_) once (fun other member => ?_) ends⟩
      · rcases List.mem_append.mp member with before | last
        · exact relative other before
        · rw [List.mem_singleton.mp last]
          exact announced.relative
      · exact announces other (List.mem_cons_of_mem _ member)

/-- The names that events tell something about are different, and known. -/
theorem names_of_notices (sound : origin.1.registry.Sound project) {notices : List (String × Event)}
    (once : (notices.map (·.1)).Nodup) :
    (Turn.names (notices.map (turn project origin))).Nodup
      ∧ ∀ name ∈ Turn.names (notices.map (turn project origin)),
        name ∈ origin.1.registry.dependencies.keys := by
  have named {notice : String × Event} {name : String}
      (told : (turn project origin notice).account?.map (·.name) = some name) :
      origin.1.registry.findName notice.1 = some name
        ∧ name ∈ origin.1.registry.dependencies.keys := by
    obtain ⟨account, found, rfl⟩ := Option.map_eq_some_iff.mp told
    exact (of_account (account_of_turn found)).2
  rw [Turn.names, List.filterMap_map]
  constructor
  · have apart : notices.Pairwise fun one other => one.1 ≠ other.1 := List.pairwise_map.mp once
    refine List.pairwise_filterMap.mpr (apart.imp ?_)
    intro one other differ name told next again same
    rw [Function.comp_apply] at told again
    have held := (sound.inverse one.1 name).mp (named told).1
    rw [same, (sound.inverse other.1 next).mp (named again).1] at held
    exact differ (Option.some.inj held).symm
  · intro name member
    obtain ⟨notice, _, told⟩ := List.mem_filterMap.mp member
    rw [Function.comp_apply] at told
    exact (named told).2

/-- Events that came in another order have come to the same. -/
theorem Tally.agree (orderly : origin.1.Orderly project False []) {notices others : List (String × Event)}
    (perm : others.Perm notices) (once : (notices.map (·.1)).Nodup)
    (announces : ∀ notice ∈ notices, Announces project origin.2 notice.1 notice.2)
    {other : Engine × Disk} (first : Tally project options origin notices now)
    (second : Tally project options origin others other) :
    now.1.registry.Same other.1.registry
      ∧ ∀ place, now.2.files.get? place = other.2.files.get? place := by
  obtain ⟨different, known⟩ := names_of_notices orderly.sound once
  refine ⟨?_, fun place => ?_⟩
  · rw [first.registry, second.registry]
    exact Turn.applyAll_perm (perm.symm.map _) different known
  · by_cases touched : ∃ notice ∈ notices, Touches project origin notice place
    · obtain ⟨notice, member, told, mine⟩ := touched
      obtain ⟨account, found⟩ := Option.isSome_iff_exists.mp told
      obtain ⟨artifact, manifest, config, entries, finds⟩ := (announces notice member).finds
      refine (first.rewrites notice member account found).agree
        (second.rewrites notice (perm.mem_iff.mpr member) account found) (fun name path held => ?_) finds mine
      have named := (orderly.sound.inverse path name).mpr held
      exact (orderly.sound.watches_of_named named).1.filled
    · rw [first.files.apart touched, second.files.apart]
      rintro ⟨notice, member, touches⟩
      exact touched ⟨notice, perm.mem_iff.mp member, touches⟩

end

end Watch
end RefSync
