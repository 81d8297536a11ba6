/-
What the config of a workspace refers to once its artifact was handled. While artifacts are
handled names, paths and readiness stay as they are, so what an artifact refers to is pinned;
the workspace itself writes exactly that into its config, and nobody else writes there.
-/

import RefSync.Proofs.Update
import RefSync.Proofs.Watch.Discovery
import RefSync.Proofs.Watch.Provisions

namespace RefSync

open Routine Path Update

/-- Whether the config of a workspace references exactly some paths. Where there is no config there
are none. -/
def Disk.Refers (disk : Disk) (workspace : String) (targets : String → Prop) : Prop :=
  (∃ config entries, disk.read (Workspace.configPath workspace) = .ok (.obj config)
    ∧ Config.Lists config entries ∧ entries.keys.Nodup ∧ ∀ path, path ∈ entries.keys ↔ targets path)
  ∨ disk.Vacant (Workspace.configPath workspace) ∧ ∀ path, ¬targets path

namespace Watch

/-- What does not become different while artifacts are handled: what the registry knows of
workspaces, and what is read of one artifact. -/
structure Pinned (project : Project) (registry : Registry) (workspace : String) (value : Json)
    (state : Engine × Disk) : Prop where
  same : state.2.project = project
  names : state.1.registry.names = registry.names
  paths : state.1.registry.paths = registry.paths
  manifests : state.1.registry.manifests = registry.manifests
  readiness : state.1.registry.readiness = registry.readiness
  reads : state.2.read (Workspace.artifactPath workspace) = .ok value

/-- While artifacts are handled, a config that refers to what it should goes on to do so. -/
def referring (project : Project) (registry : Registry) (workspace : String) (value : Json)
    (targets : String → Prop) : Conduct Disk where
  allows before after := Pinned project registry workspace value before →
    Pinned project registry workspace value after
      ∧ (before.2.Refers workspace targets → after.2.Refers workspace targets)
  refl _ pinned := ⟨pinned, id⟩
  trans first second pinned := by
    obtain ⟨between, one⟩ := first pinned
    obtain ⟨after, two⟩ := second between
    exact ⟨after, two ∘ one⟩

section

variable {project : Project} {options : SyncOptions} {registry : Registry} {value : Json}
  {targets : String → Prop} {workspace other path : String} {document : Document}
  {now : Engine × Disk}

theorem Pinned.findName (pinned : Pinned project registry workspace value now) (other : String) :
    now.1.registry.findName other = registry.findName other := by
  rw [Registry.findName, pinned.names]
  rfl

theorem Pinned.isReady (pinned : Pinned project registry workspace value now) (other : String) :
    now.1.registry.isReady other = registry.isReady other := by
  apply Registry.isReady_congr
  rw [Registry.readinessOf, pinned.readiness]
  rfl

attribute [local irreducible] Disk.write

/-! ### Writes -/

theorem Pinned.written (pinned : Pinned project registry workspace value now)
    (apart : project.resolved (Workspace.artifactPath workspace) ≠ project.resolved path) :
    Pinned project registry workspace value (now.1, (now.2.write path document).2) := by
  have same : (now.2.write path document).2.project = now.2.project := by
    rw [(Disk.puts_write now.2 path document).2]
  refine { pinned with same := same.trans pinned.same, reads := ?_ }
  apply Disk.read_keeps same (Disk.keeps_write now.2 path document) pinned.reads
  rwa [pinned.same]

/-- A document that is written elsewhere is nothing to the references of a workspace. -/
theorem refers_elsewhere {disk : Disk} (refers : disk.Refers workspace targets)
    (apart : disk.project.resolved (Workspace.configPath workspace) ≠ disk.project.resolved path) :
    (disk.write path document).2.Refers workspace targets := by
  have puts := Disk.puts_write disk path document
  have same : (disk.write path document).2.project = disk.project := by rw [puts.2]
  rcases refers with ⟨config, entries, reads, listed⟩ | ⟨vacant, nothing⟩
  · exact Or.inl ⟨config, entries, Disk.read_keeps same puts.1.keeps reads apart, listed⟩
  · exact Or.inr ⟨vacant.puts same puts.1 apart, nothing⟩

/-- A write of the config that fails leaves its references as they were. -/
theorem refers_unwritten {disk : Disk} {problem : WriteFault}
    (failed : (disk.write (Workspace.configPath workspace) document).1 = .error problem)
    (refers : disk.Refers workspace targets) :
    (disk.write (Workspace.configPath workspace) document).2.Refers workspace targets := by
  have same : (disk.write (Workspace.configPath workspace) document).2.project = disk.project := by
    rw [(Disk.puts_write disk _ document).2]
  have puts := Disk.puts_failed failed (.text [])
  have below : disk.project.resolved (Workspace.configPath workspace) ≠ [] := by
    intro top
    have last := disk.project.last_resolved (Workspace.last_configPath workspace) (by decide)
    rw [top] at last
    cases last
  rcases refers with ⟨config, entries, reads, listed⟩ | ⟨vacant, nothing⟩
  · exact Or.inl ⟨config, entries, Disk.read_keeps same puts.keeps reads below, listed⟩
  · exact Or.inr ⟨vacant.puts same puts below, nothing⟩

/-- A config that is written refers to what it lists. -/
theorem refers_written {disk : Disk} {entries : Table Json} (clean : Document.Clean document)
    (lists : Config.Lists document entries) (once : entries.keys.Nodup)
    (items : ∀ path, path ∈ entries.keys ↔ targets path)
    (written : (disk.write (Workspace.configPath workspace) document).1 = .ok ()) :
    (disk.write (Workspace.configPath workspace) document).2.Refers workspace targets :=
  Or.inl ⟨document, entries, Disk.read_written (Workspace.last_configPath workspace) (by decide) clean
    written, lists, once, items⟩

/-! ### The others -/

theorem permits_referring : Permits project (fun _ => True)
    (referring project registry workspace value targets) (fun _ => True)
    (Pinned project registry workspace value) where
  endures _ _ allowed pinned := (allowed pinned).1
  notes _ _ _ same _ _ pinned := by
    refine ⟨⟨pinned.same, ?_, ?_, ?_, ?_, pinned.reads⟩, id⟩ <;> rw [same]
    · exact pinned.names
    · exact pinned.paths
    · exact pinned.manifests
    · exact pinned.readiness
  faults _ _ _ _ := trivial

theorem permitsRecords_referring (other : String) :
    PermitsRecords (referring project registry workspace value targets) (fun _ => True)
      (Pinned project registry workspace value) options other where
  learns _ _ _ _ _ _ pinned := ⟨{ pinned with }, id⟩
  marks _ _ _ _ _ pinned := ⟨{ pinned with }, id⟩
  pauses _ _ _ pinned := ⟨{ pinned with }, id⟩
  endless _ _ _ := trivial

theorem endures_refers : Endures (referring project registry workspace value targets) fun state =>
    Pinned project registry workspace value state ∧ state.2.Refers workspace targets :=
  fun _ _ allowed ⟨pinned, refers⟩ => ⟨(allowed pinned).1, (allowed pinned).2 refers⟩

/-- An artifact that is there is looked for before it is read. -/
theorem abides_refer_present {handler : Routine Unit} {post : Unit → Engine × Disk → Prop}
    (handles : Abides Disk.alone (referring project registry workspace value targets)
      (fun _ => True) (Pinned project registry workspace value) handler post) :
    Abides Disk.alone (referring project registry workspace value targets) (fun _ => True)
      (Pinned project registry workspace value)
      (whenPresent (Workspace.artifactPath workspace) handler) post := by
  apply (abides_look permits_referring.endures (.isPresent (Workspace.artifactPath workspace))
    fun _ => rfl).follow
  rintro given ⟨asks, before, rfl⟩
  have present : (Disk.alone (.isPresent (Workspace.artifactPath workspace)) asks).1 = .ok true := by
    obtain ⟨content, holds⟩ := Disk.readable_of_read before.reads
    exact Disk.isPresent_of_walk holds.walk
  rw [present]
  exact handles

section

variable (relative : project.IsRelative workspace)

include relative

theorem artifact_apart (last : (parts path).getLast? = some manifestFile
    ∨ (parts path).getLast? = some configFile) :
    project.resolved (Workspace.artifactPath workspace) ≠ project.resolved path := by
  intro same
  have artifact := project.last_resolved (Workspace.last_artifactPath relative.spelled.stem) (by decide)
  rcases last with last | last
  · rw [same, project.last_resolved last (by decide)] at artifact
    exact absurd artifact (by decide)
  · rw [same, project.last_resolved last (by decide)] at artifact
    exact absurd artifact (by decide)

theorem permitsManifest_referring (other : String) (change : Document → Option Document) :
    PermitsManifest (fun _ => True) (referring project registry workspace value targets)
      (Pinned project registry workspace value) (Workspace.manifestPath other) change := by
  refine ⟨trivial, fun asks manifest updated now _ _ _ _ pinned => ⟨?_, fun refers => ?_⟩⟩
  · exact pinned.written (artifact_apart relative (Or.inl (Workspace.last_manifestPath other)))
  · apply refers_elsewhere refers
    rw [pinned.same]
    intro same
    have config := project.last_resolved (Workspace.last_configPath workspace) (by decide)
    rw [same, project.last_resolved (Workspace.last_manifestPath other) (by decide)] at config
    exact absurd config (by decide)

/-- Other workspaces have their own configs. -/
theorem permitsConfig_referring (otherRelative : project.IsRelative other) (differs : other ≠ workspace) :
    PermitsConfig (fun _ => True) (referring project registry workspace value targets)
      (Pinned project registry workspace value) (Workspace.configPath other) := by
  refine ⟨trivial, fun asks found updated now _ _ _ _ pinned => ⟨?_, fun refers => ?_⟩⟩
  · exact pinned.written (artifact_apart relative (Or.inr (Workspace.last_configPath other)))
  · apply refers_elsewhere refers
    rw [pinned.same]
    exact (documents_apart otherRelative relative).1.resolve_left differs.symm

theorem permitsArtifact_referring (otherRelative : project.IsRelative other)
    (differs : other ≠ workspace) :
    PermitsArtifact (fun _ => True) (referring project registry workspace value targets)
      (fun _ => True) (Pinned project registry workspace value) options other where
  toPermitsRecords := permitsRecords_referring other
  config := permitsConfig_referring relative otherRelative differs
  manifest _ _ _ _ _ _ _ _ _ _ := permitsManifest_referring relative other _

/-- What another workspace does about its artifact. -/
theorem abides_watch_other (otherRelative : project.IsRelative other) (differs : other ≠ workspace) :
    Abides Disk.alone (referring project registry workspace value targets) (fun _ => True)
      (Pinned project registry workspace value) (watchArtifact project options other)
      fun _ => Pinned project registry workspace value := by
  apply abides_watchArtifact permits_referring trivial
  · rw [Workspace.ofArtifact_artifactPath otherRelative.spelled.stem]
    exact permitsArtifact_referring relative otherRelative differs
  · exact fun _ _ _ pinned => ⟨{ pinned with }, id⟩

/-! ### The workspace itself -/

/-- A config with the references that it should have is written. -/
theorem abides_writes_references {entries : Table Json} (clean : Document.Clean document)
    (lists : Config.Lists document entries) (once : entries.keys.Nodup)
    (items : ∀ path, path ∈ entries.keys ↔ targets path) :
    Abides Disk.alone (referring project registry workspace value targets) (fun _ => True)
      (Pinned project registry workspace value)
      (writeDocument (Workspace.configPath workspace) document) fun _ state =>
        Pinned project registry workspace value state ∧ state.2.Refers workspace targets := by
  have permits : Permits project (fun _ => True) (referring project registry workspace value targets)
      (fun _ => True) (Pinned project registry workspace value) := permits_referring
  apply (abides_put permits trivial endures_refers fun state pinned => ?_).weaken
    fun _ _ ended => ended.2
  have still : Pinned project registry workspace value
      (state.1, (state.2.write (Workspace.configPath workspace) document).2) :=
    pinned.written (artifact_apart relative (Or.inr (Workspace.last_configPath workspace)))
  refine ⟨fun _ => ⟨still, fun refers => ?_⟩, fun written =>
    ⟨still, refers_written clean lists once items written⟩⟩
  cases written : (state.2.write (Workspace.configPath workspace) document).1 with
  | ok _ => exact refers_written clean lists once items written
  | error problem => exact refers_unwritten written refers

/-- A config that lists what it should already refers to it. A missing one lists nothing. -/
theorem Pinned.refers (pinned : Pinned project registry workspace value now) {found : Option Document}
    {entries : Table Json} (finds : now.2.Finds? (Workspace.configPath workspace) found)
    (lists : Config.Lists (found.getD (Config.newWorkspace false)) entries) (once : entries.keys.Nodup)
    (items : ∀ path, path ∈ entries.keys ↔ targets path) : now.2.Refers workspace targets := by
  cases found with
  | some config => exact Or.inl ⟨config, entries, finds, lists, once, items⟩
  | none =>
      obtain ⟨shown, missing⟩ := finds
      refine Or.inr ⟨Disk.vacant_of_missing relative.spelled.stem (Disk.readable_of_read pinned.reads)
        missing, fun path target => ?_⟩
      have bare : entries = [] := by
        rcases lists.listed with some | ⟨_, none⟩
        · cases some
        · exact none
      have member := (items path).mpr target
      rw [bare] at member
      cases member

/-- The references of the workspace are brought in line with what its artifact refers to. -/
theorem abides_refer {names : List String}
    (exact : ∀ path, targets path ↔ IsTarget project registry workspace names path) :
    Abides Disk.alone (referring project registry workspace value targets) (fun _ => True)
      (Pinned project registry workspace value) (Update.references project workspace names)
      fun _ state =>
        Pinned project registry workspace value state ∧ state.2.Refers workspace targets := by
  have permits : Permits project (fun _ => True) (referring project registry workspace value targets)
      (fun _ => True) (Pinned project registry workspace value) := permits_referring
  apply abides_registry
  intro begun pinned
  cases resolved : targetAliases project begun.1.registry workspace names with
  | error fault => exact abides_throw trivial
  | ok aliases =>
      have keys (path : String) : path ∈ aliases.keys ↔ targets path := by
        rw [targetAliases_keys resolved, isTarget_eq project pinned.paths, exact]
      have known : ∀ path ∈ aliases.keys, (aliases.get? path).isSome :=
        fun path member => Table.mem_keys_iff.mp member
      have begins : ∀ state, state = begun → Pinned project registry workspace value state :=
        fun state same => same ▸ pinned
      refine Abides.strengthen ?_ begins
      apply (abides_lookFor permits trivial).bind
      intro found
      apply Abides.some
      intro asks
      apply Abides.given
      rintro ⟨before, finds⟩
      have clean : Document.Clean (found.getD (Config.newWorkspace false)) := by
        cases found with
        | none => exact Config.clean_newWorkspace false
        | some config => exact Document.clean_obj.mp (Disk.clean_of_read finds)
      apply Abides.bind (fun update state => (Pinned project registry workspace value state
        ∧ (referring project registry workspace value targets).allows asks state)
        ∧ Config.updateReferences? (found.getD (Config.newWorkspace false)) aliases.keys aliases.get?
          = .ok update)
      · exact abides_ofExcept (fun _ _ same holds => ⟨holds, same⟩) fun _ _ => trivial
      intro update
      apply Abides.given
      intro updated
      obtain ⟨entries, lists, once, items⟩ := Config.updateReferences?_lists clean known updated
      have wanted (path : String) : path ∈ entries.keys ↔ targets path := (items path).trans (keys path)
      cases update with
      | none =>
          have refers := before.refers relative finds lists once wanted
          exact abides_pure fun _ holds => ⟨holds.1, (holds.2 before).2 refers⟩
      | some document =>
          have isClean := (Config.revises_updateReferences known updated).clean clean
          have writes : Abides Disk.alone (referring project registry workspace value targets)
              (fun _ => True) (Pinned project registry workspace value)
              (writeDocument (Workspace.configPath workspace) document) _ :=
            abides_writes_references relative isClean lists once wanted
          refine Abides.strengthen ?_ fun _ holds => holds.1
          apply writes.bind
          intro _
          have logs := (abides_log permits .info ("Writing " ++ label begun.1.registry workspace
            ++ " tsconfig.json with updated references list")).frame endures_refers
          apply (logs.strengthen fun _ holds => ⟨holds.1, holds⟩).bind
          exact fun _ => abides_pure fun _ holds => holds.2

theorem abides_refer_documents {missing pruned names : List String}
    (exact : ∀ path, targets path ↔ IsTarget project registry workspace names path) :
    Abides Disk.alone (referring project registry workspace value targets) (fun _ => True)
      (Pinned project registry workspace value)
      (updateDocuments project workspace missing pruned names) fun _ state =>
        Pinned project registry workspace value state ∧ state.2.Refers workspace targets := by
  have updates : ∀ update ∈ (if missing.isEmpty && pruned.isEmpty
      then [Update.references project workspace names]
      else [Update.dependencies workspace missing pruned, Update.references project workspace names]),
      Abides Disk.alone (referring project registry workspace value targets) (fun _ => True)
        (Pinned project registry workspace value) (id update) fun _ state =>
          Pinned project registry workspace value state
            ∧ (update = Update.references project workspace names →
              state.2.Refers workspace targets) := by
    intro update member
    by_cases own : update = Update.references project workspace names
    · rw [own]
      exact (abides_refer relative exact).weaken fun _ _ ended => ⟨ended.1, fun _ => ended.2⟩
    · split at member
      · exact absurd (List.mem_singleton.mp member) own
      · rcases List.mem_cons.mp member with rfl | member
        · exact (abides_dependencies permits_referring
            (permitsManifest_referring relative workspace _)).weaken
              fun _ _ pinned => ⟨pinned, fun same => absurd same own⟩
        · exact absurd (List.mem_singleton.mp member) own
  have lasting (update : Routine Bool) : Endures (referring project registry workspace value targets)
      fun state => Pinned project registry workspace value state
        ∧ (update = Update.references project workspace names → state.2.Refers workspace targets) :=
    fun _ _ allowed ⟨pinned, refers⟩ =>
      ⟨(allowed pinned).1, fun same => (allowed pinned).2 (refers same)⟩
  apply (abides_all permits_referring.endures lasting updates).bind
  intro _
  apply abides_pure
  rintro state ⟨pinned, each⟩
  refine ⟨pinned, (each (Update.references project workspace names) ?_).2 rfl⟩
  split <;> simp

section

variable {name : String} {artifact : Artifact}
  (named : registry.findName workspace = some name) (ready : registry.isReady workspace = true)
  (exact : ∀ path, targets path ↔ IsTarget project registry workspace
    (discoveredNames project registry (Workspace.artifactPath workspace) name artifact) path)

include named ready exact

theorem abides_refer_read :
    Abides Disk.alone (referring project registry workspace value targets) (fun _ => True)
      (Pinned project registry workspace value)
      (artifactRead project options (Workspace.artifactPath workspace) workspace name artifact)
      fun _ state => Pinned project registry workspace value state
        ∧ state.2.Refers workspace targets := by
  apply abides_registry
  intro begun pinned
  have holds := (pinned.findName workspace).trans named
  have current : (begun.1.registry.findName workspace == some name
      && begun.1.registry.isReady workspace) = true := by
    rw [pinned.isReady, ready, holds, beq_self_eq_true]
    rfl
  rw [current]
  change Abides _ _ _ _ (applyDiscovered ..) _
  have applies : Abides Disk.alone (referring project registry workspace value targets) (fun _ => True)
      (fun state => Pinned project registry workspace value state
        ∧ state.1.registry.findName workspace = some name)
      (applyDiscovered project options workspace name (discoveredNames project begun.1.registry
        (Workspace.artifactPath workspace) name artifact)) fun _ state =>
        Pinned project registry workspace value state ∧ state.2.Refers workspace targets := by
    apply abides_discover permits_referring (permitsRecords_referring workspace)
    intro other stored missing pruned otherPinned _ _ _ _
    apply abides_refer_documents relative
    intro path
    rw [exact, discoveredNames_eq pinned.names pinned.manifests]
    have sameThere : other.1.registry.findPath = registry.findPath := by
      unfold Registry.findPath
      rw [otherPinned.paths]
    unfold IsTarget
    rw [sameThere]
    simp only [List.mem_filter]
    constructor
    · rintro ⟨found, member, place, at_, reference⟩
      exact ⟨found, ⟨member, by rw [at_]; rfl⟩, place, at_, reference⟩
    · rintro ⟨found, ⟨member, _⟩, place, at_, reference⟩
      exact ⟨found, member, place, at_, reference⟩
  exact applies.strengthen fun state same => same ▸ ⟨pinned, holds⟩

variable (valid : Artifact.validate value = .ok artifact)

include valid

/-- The artifact of a workspace that is ready is read, and the config follows it. -/
theorem abides_refer_written :
    Abides Disk.alone (referring project registry workspace value targets) (fun _ => True)
      (Pinned project registry workspace value)
      (artifactWritten project options (Workspace.artifactPath workspace)) fun _ state =>
        Pinned project registry workspace value state ∧ state.2.Refers workspace targets := by
  have reads : Abides Disk.alone (referring project registry workspace value targets)
      (fun _ => True) (Pinned project registry workspace value)
      (readRetrying (Workspace.artifactPath workspace)
        (project.absolute (Workspace.artifactPath workspace)) options.artifactAttempts
        options.artifactDelay) fun outcome state =>
        Pinned project registry workspace value state ∧ outcome = .ok value := by
    unfold readRetrying
    rw [readAgain.eq_def]
    apply (abides_look permits_referring.endures (.read (Workspace.artifactPath workspace))
      fun _ => rfl).follow
    rintro given ⟨asks, before, rfl⟩
    have given : (Disk.alone (.read (Workspace.artifactPath workspace)) asks).1 = .ok value :=
      before.reads
    rw [given]
    exact abides_pure fun _ pinned => ⟨pinned, rfl⟩
  apply abides_registry
  intro begun pinned
  rw [Workspace.ofArtifact_artifactPath relative.spelled.stem]
  have holds : begun.1.registry.nameOf workspace = .ok name := by
    rw [Registry.nameOf, pinned.findName, named]
  rw [pinned.isReady, ready, holds]
  have begins : ∀ state, state = begun → Pinned project registry workspace value state :=
    fun state same => same ▸ pinned
  refine Abides.strengthen ?_ begins
  apply reads.follow
  rintro outcome rfl
  have decodes : artifactOf (Workspace.artifactPath workspace) (.ok value)
      = pure (some artifact) := by
    rw [artifactOf, valid]
    rfl
  rw [decodes]
  exact abides_refer_read relative named ready exact

/-- A workspace that starts to watch its artifact handles the one that is there. -/
theorem abides_refer_watch (watched : isWatched registry workspace = true) :
    Abides Disk.alone (referring project registry workspace value targets) (fun _ => True)
      (fun state => Pinned project registry workspace value state
        ∧ Workspace.artifactPath workspace ∉ state.1.registry.artifacts)
      (watchArtifact project options workspace) fun _ state =>
        Pinned project registry workspace value state ∧ state.2.Refers workspace targets := by
  apply abides_registry
  rintro begun ⟨pinned, unwatched⟩
  have due : (!begun.1.registry.artifacts.contains (Workspace.artifactPath workspace)
      && isWatched begun.1.registry workspace) = true := by
    rw [isWatched, pinned.manifests, Bool.and_eq_true, Bool.not_eq_true', List.contains_eq_mem,
      decide_eq_false_iff_not]
    exact ⟨unwatched, watched⟩
  rw [due]
  have watches : Abides Disk.alone (referring project registry workspace value targets)
      (fun _ => True) (· = begun)
      (modifyRegistry (·.watchArtifact (Workspace.artifactPath workspace)))
      fun _ => Pinned project registry workspace value :=
    abides_modify fun _ same => ⟨fun pinned => ⟨{ pinned with }, id⟩, by
      rw [same]
      exact { pinned with }⟩
  apply watches.bind
  intro _
  exact abides_refer_present (abides_created permits_referring (permitsRecords_referring workspace)
    (abides_refer_written relative named ready exact valid))

end

end

end

end Watch
end RefSync
