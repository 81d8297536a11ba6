/-
Handling artifacts, and giving workspaces their configs, among others that rely on something.
What a workspace's artifact may lead to is an update of its manifest, one of its config and
other dependencies of its name; everything else is bookkeeping.
-/

import RefSync.Proofs.Update.Permitted
import RefSync.Proofs.Watch.Workspaces

namespace RefSync

open Routine Path Update

namespace Watch

/-- Whether every pause between two attempts has a length. -/
def PausesEnd (options : SyncOptions) : Prop :=
  ∀ failures, failures + 1 < options.artifactAttempts.toNat →
    (options.artifactDelay.grown? failures).isSome

instance (options : SyncOptions) : Decidable (PausesEnd options) :=
  decidable_of_iff (∀ failures < options.artifactAttempts.toNat - 1,
      (options.artifactDelay.grown? failures).isSome) <|
    forall_congr' fun _ => imp_congr_left (by omega)

/-- Whether what is recorded while the artifact of a workspace is handled is permitted. -/
structure PermitsRecords (conduct : Conduct Disk) (bearable : Fault → Prop)
    (pre : Engine × Disk → Prop) (options : SyncOptions) (workspace : String) : Prop where
  learns state name discovered : pre state → state.1.registry.findName workspace = some name →
    (∀ found ∈ discovered, (state.1.registry.findPath found).isSome) →
    conduct.allows state
      ({ state.1 with registry := state.1.registry.setDependencies name discovered }, state.2)
  marks state (missing reported : TextSet) : pre state →
    (∀ path ∈ missing, path ∈ state.1.registry.missingArtifacts) → conduct.allows state
    ({ state.1 with registry := { state.1.registry with
        missingArtifacts := missing, reported := reported } }, state.2)
  pauses state (pauses : List Duration) : pre state →
    conduct.allows state (state.1, { state.2 with pauses := pauses })
  endless failures : failures + 1 < options.artifactAttempts.toNat →
    options.artifactDelay.grown? failures = none → bearable .endlessPause

/-- Whether all that the artifact of a workspace may lead to is permitted. -/
structure PermitsArtifact (may : Request → Prop) (conduct : Conduct Disk)
    (bearable : Fault → Prop) (pre : Engine × Disk → Prop) (options : SyncOptions)
    (workspace : String) : Prop extends PermitsRecords conduct bearable pre options workspace where
  config : PermitsConfig may conduct pre (Workspace.configPath workspace)
  manifest state name stored missing redundant : pre state →
    state.1.registry.findName workspace = some name →
    state.1.registry.dependenciesOf name = .ok stored →
    (∀ gone ∈ redundant, gone ∈ stored) → (options.pruneRedundant = false → redundant = []) →
    PermitsManifest may conduct pre (Workspace.manifestPath workspace)
      (Manifest.updateDependencies? · missing redundant)

/-- Whether anything may change about a registry but its names and the manifests that it watches. -/
def PermitsRegistries (conduct : Conduct Disk) (pre : Engine × Disk → Prop) : Prop :=
  ∀ state (registry : Registry), pre state → registry.names = state.1.registry.names →
    registry.paths = state.1.registry.paths → registry.manifests = state.1.registry.manifests →
    conduct.allows state ({ state.1 with registry := registry }, state.2)

/-- What holds until the dependencies of a workspace are replaced: nobody has another name than at
first. -/
def Noted (pre : Engine × Disk → Prop) (first : Registry) (state : Engine × Disk) : Prop :=
  pre state ∧ state.1.registry.names = first.names ∧ state.1.registry.paths = first.paths

section

variable {project : Project} {may : Request → Prop} {conduct : Conduct Disk}
  {bearable : Fault → Prop} {pre : Engine × Disk → Prop} {options : SyncOptions} {workspace : String}
  (permits : Permits project may conduct bearable pre)

include permits

theorem abides_modify_noted {first : Registry} {change : Engine → Engine}
    (allowed : ∀ state, pre state → conduct.allows state (change state.1, state.2))
    (names : ∀ engine, (change engine).registry.names = engine.registry.names)
    (paths : ∀ engine, (change engine).registry.paths = engine.registry.paths) :
    Abides Disk.alone conduct bearable (Noted pre first) (modify change) fun _ => Noted pre first := by
  apply abides_modify
  rintro state ⟨holds, sameNames, samePaths⟩
  exact ⟨allowed state holds, permits.endures _ _ (allowed state holds) holds,
    (names state.1).trans sameNames, (paths state.1).trans samePaths⟩

theorem abides_log_noted {first : Registry} (level : Level) (message : String) :
    Abides Disk.alone conduct bearable (Noted pre first) (log level message) fun _ => Noted pre first :=
  abides_modify_noted permits (fun state holds => permits.notes state
    { state.1 with log := state.1.log ++ [⟨level, message⟩] } holds rfl rfl rfl)
    (fun _ => rfl) fun _ => rfl

theorem abides_notice_noted {first : Registry} (message : String) :
    Abides Disk.alone conduct bearable (Noted pre first) (notice message) fun _ => Noted pre first :=
  abides_modify_noted permits (fun state holds => permits.notes state { state.1 with
    notices := state.1.notices.filter (· != message) ++ [message] } holds rfl rfl rfl)
    (fun _ => rfl) fun _ => rfl

theorem abides_reportRedundant (records : PermitsRecords conduct bearable pre options workspace)
    {first : Registry} (name : String) (redundant : List String) :
    Abides Disk.alone conduct bearable (Noted pre first) (reportRedundant name redundant)
      fun _ => Noted pre first := by
  apply abides_anyRegistry
  intro registry
  apply abides_onlyIf
  · intro _
    have report : Abides Disk.alone conduct bearable (Noted pre first)
        (modifyRegistry (·.report (Manifest.uninstallCommand name redundant)))
        fun _ => Noted pre first :=
      abides_modify_noted permits (fun state holds => records.marks state
        state.1.registry.missingArtifacts
        (state.1.registry.reported.insert (Manifest.uninstallCommand name redundant)) holds
        fun _ => id) (fun _ => rfl) fun _ => rfl
    exact report.bind _ fun _ => abides_log_noted permits _ _
  · exact fun _ _ => id

/-- The dependencies that are known of a workspace are replaced, then its documents follow. -/
theorem abides_discover (records : PermitsRecords conduct bearable pre options workspace)
    {name : String} (discovered : List String) {post : Unit → Engine × Disk → Prop}
    (documents : ∀ begun stored missing pruned, pre begun →
      begun.1.registry.findName workspace = some name →
      begun.1.registry.dependenciesOf name = .ok stored → (∀ gone ∈ pruned, gone ∈ stored) →
      (options.pruneRedundant = false → pruned = []) →
      Abides Disk.alone conduct bearable pre (updateDocuments project workspace missing pruned
        (discovered.filter fun name => (begun.1.registry.findPath name).isSome)) post) :
    Abides Disk.alone conduct bearable
      (fun state => pre state ∧ state.1.registry.findName workspace = some name)
      (applyDiscovered project options workspace name discovered) post := by
  apply abides_registry
  rintro begun ⟨holds, named⟩
  cases known : begun.1.registry.dependenciesOf name with
  | error fault => exact abides_throw (permits.faults begun _ holds (.unlearned named known))
  | ok stored =>
      let remaining := discovered.filter fun name => (begun.1.registry.findPath name).isSome
      let redundant := sortTexts (redundantItems stored remaining)
      let missing := sortTexts (missingItems stored remaining)
      have rest : Abides Disk.alone conduct bearable (Noted pre begun.1.registry) (do
          onlyIf (!redundant.isEmpty && !options.pruneRedundant && options.showRedundant)
            (reportRedundant name redundant)
          onlyIf (!missing.isEmpty) (notice installNotice)
          modifyRegistry (·.setDependencies name remaining)
          updateDocuments project workspace missing
            (if options.pruneRedundant then redundant else []) remaining) post := by
        apply Abides.bind (fun _ => Noted pre begun.1.registry)
        · exact abides_onlyIf (fun _ => abides_reportRedundant permits records name redundant)
            fun _ _ => id
        intro _
        apply Abides.bind (fun _ => Noted pre begun.1.registry)
        · exact abides_onlyIf (fun _ => abides_notice_noted permits installNotice) fun _ _ => id
        intro _
        apply Abides.bind (fun _ => pre)
        · apply abides_modify
          rintro state ⟨holds, names, paths⟩
          have allowed := records.learns state name remaining holds
            (by rw [Registry.findName, names]; exact named) (fun found member => by
              rw [Registry.findPath, paths]
              exact (List.mem_filter.mp member).2)
          exact ⟨allowed, permits.endures _ _ allowed holds⟩
        intro _
        apply documents begun stored missing _ holds named known
        · intro gone member
          split at member
          · exact (mem_redundantItems.mp (mem_sortTexts.mp member)).1
          · cases member
        · intro keeps
          rw [keeps]
          rfl
      refine rest.strengthen ?_
      rintro _ rfl
      exact ⟨holds, rfl, rfl⟩

theorem abides_updateDocuments {missing pruned discovered : List String}
    (config : PermitsConfig may conduct pre (Workspace.configPath workspace))
    (manifest : PermitsManifest may conduct pre (Workspace.manifestPath workspace)
      (Manifest.updateDependencies? · missing pruned)) :
    Abides Disk.alone conduct bearable pre
      (updateDocuments project workspace missing pruned discovered) fun _ => pre := by
  have references : Abides Disk.alone conduct bearable pre
      (Update.references project workspace discovered) fun _ => pre :=
    abides_references permits config discovered
  have updates : ∀ update ∈ (if missing.isEmpty && pruned.isEmpty
      then [Update.references project workspace discovered]
      else [Update.dependencies workspace missing pruned,
        Update.references project workspace discovered]),
      Abides Disk.alone conduct bearable pre update fun _ _ => True := by
    intro update member
    split at member
    · rw [List.mem_singleton.mp member]
      exact references.weaken fun _ _ _ => trivial
    · rcases List.mem_cons.mp member with rfl | member
      · exact (abides_dependencies permits manifest).weaken fun _ _ _ => trivial
      · rw [List.mem_singleton.mp member]
        exact references.weaken fun _ _ _ => trivial
  apply (abides_group permits.endures updates).bind
  exact fun _ => abides_pure fun _ => id

section

variable (artifact : PermitsArtifact may conduct bearable pre options workspace)

include artifact

theorem abides_applyDiscovered {name : String} (discovered : List String) :
    Abides Disk.alone conduct bearable
      (fun state => pre state ∧ state.1.registry.findName workspace = some name)
      (applyDiscovered project options workspace name discovered) fun _ => pre :=
  abides_discover permits artifact.toPermitsRecords discovered
    fun begun stored missing _ holds named known within keeps =>
      abides_updateDocuments permits artifact.config
        (artifact.manifest begun name stored missing _ holds named known within keeps)

theorem abides_artifactRead {path name : String} (read : Artifact) :
    Abides Disk.alone conduct bearable pre
      (artifactRead project options path workspace name read) fun _ => pre := by
  apply abides_registry
  intro state holds
  apply abides_onlyIf
  · intro current
    rw [Bool.and_eq_true, beq_iff_eq] at current
    exact (abides_applyDiscovered permits artifact _).strengthen
      fun other same => same ▸ ⟨holds, current.1⟩
  · exact fun other _ same => same ▸ holds

theorem abides_readAgain {path shown : String} (more failures : Nat)
    (within : more = 0 ∨ failures + more < options.artifactAttempts.toNat) :
    Abides Disk.alone conduct bearable pre
      (readAgain path shown options.artifactDelay more failures) fun _ => pre := by
  induction more generalizing failures with
  | zero =>
      rw [readAgain.eq_def]
      apply (abides_look permits.endures (.read path) fun _ => rfl).follow
      intro given _
      cases given with
      | ok value => exact abides_pure fun _ => id
      | error cause => exact abides_pure fun _ => id
  | succ more ih =>
      rw [readAgain.eq_def]
      apply (abides_look permits.endures (.read path) fun _ => rfl).follow
      intro given _
      cases given with
      | ok value => exact abides_pure fun _ => id
      | error cause =>
          cases grown : options.artifactDelay.grown? failures with
          | none =>
              exact abides_throw (artifact.endless failures (by omega) grown)
          | some pause =>
              refine Abides.bind _ (abides_ask (.pause pause) permits.endures fun state holds =>
                artifact.pauses state (state.2.pauses ++ [pause]) holds) fun _ => ?_
              exact (ih (failures + 1) (by omega)).strengthen fun _ holds => holds.1

end

theorem abides_artifactOf (path : String) (outcome : Except Unreadable Json) :
    Abides Disk.alone conduct bearable pre (artifactOf path outcome) fun _ => pre := by
  have complains (message : String) :
      Abides Disk.alone conduct bearable pre (artifactOf.complain path message) fun _ => pre := by
    apply (abides_log permits _ _).bind
    exact fun _ => abides_pure fun _ => id
  cases outcome with
  | error failure => exact complains failure.message
  | ok value =>
      cases valid : Artifact.validate value with
      | ok read =>
          simp only [artifactOf, valid]
          exact abides_pure fun _ => id
      | error failure =>
          simp only [artifactOf, valid]
          exact complains failure.message

theorem abides_artifactWritten {path : String}
    (artifact : PermitsArtifact may conduct bearable pre options (Workspace.ofArtifact path)) :
    Abides Disk.alone conduct bearable pre (artifactWritten project options path)
      fun _ => pre := by
  apply abides_registry
  intro state holds
  apply abides_onlyIf
  · intro ready
    have named : Abides Disk.alone conduct bearable (· = state)
        (ofExcept Fault.registry (state.1.registry.nameOf (Workspace.ofArtifact path)))
        fun _ => pre := by
      apply abides_ofExcept
      · exact fun _ other _ same => same ▸ holds
      · exact fun problem failed => permits.faults state _ holds (.unnamed ready failed)
    apply named.bind
    intro name
    apply (abides_readAgain permits artifact _ _ (by omega)).bind
    intro outcome
    apply (abides_artifactOf permits path outcome).bind
    intro read
    cases read with
    | none => exact abides_pure fun _ => id
    | some read => exact abides_artifactRead permits artifact read
  · exact fun other _ same => same ▸ holds

/-- An artifact that is there again is handled like one that was written. -/
theorem abides_created (records : PermitsRecords conduct bearable pre options workspace) {path : String}
    {post : Unit → Engine × Disk → Prop}
    (handles : Abides Disk.alone conduct bearable pre (artifactWritten project options path) post) :
    Abides Disk.alone conduct bearable pre (artifactCreated project options path) post := by
  apply abides_anyRegistry
  intro registry
  apply Abides.bind (fun _ => pre)
  · apply abides_onlyIf
    · intro _
      have unmarks : Abides Disk.alone conduct bearable pre (modifyRegistry (·.unmarkMissing path))
          fun _ => pre := by
        apply abides_modify
        intro state holds
        have allowed := records.marks state (state.1.registry.missingArtifacts.remove path)
          state.1.registry.reported holds fun _ member => (TextSet.mem_remove.mp member).1
        exact ⟨allowed, permits.endures _ _ allowed holds⟩
      exact unmarks.bind _ fun _ => abides_log permits _ _
    · exact fun _ _ => id
  · exact fun _ => handles

theorem abides_artifactCreated {path : String}
    (artifact : PermitsArtifact may conduct bearable pre options (Workspace.ofArtifact path)) :
    Abides Disk.alone conduct bearable pre (artifactCreated project options path)
      fun _ => pre :=
  abides_created permits artifact.toPermitsRecords (abides_artifactWritten permits artifact)

theorem abides_whenPresent {path : String} {handler : Routine Unit} (looks : may (.isPresent path))
    (handles : Abides Disk.alone conduct bearable pre handler fun _ => pre) :
    Abides Disk.alone conduct bearable pre (whenPresent path handler) fun _ => pre := by
  apply (abides_look permits.endures (.isPresent path) fun _ => rfl).follow
  rintro given ⟨asks, before, rfl⟩
  apply (abides_orThrow fun problem failed =>
    permits.faults asks _ before (.unseen looks failed)).follow
  intro present _
  exact abides_onlyIf (fun _ => handles) fun _ _ => id

theorem abides_watchArtifact (looks : may (.isPresent (Workspace.artifactPath workspace)))
    (artifact : PermitsArtifact may conduct bearable pre options
      (Workspace.ofArtifact (Workspace.artifactPath workspace)))
    (watches : ∀ state, pre state → isWatched state.1.registry workspace = true →
      conduct.allows state ({ state.1 with
        registry := state.1.registry.watchArtifact (Workspace.artifactPath workspace) }, state.2)) :
    Abides Disk.alone conduct bearable pre (watchArtifact project options workspace)
      fun _ => pre := by
  apply abides_registry
  intro state holds
  apply abides_onlyIf
  · intro due
    rw [Bool.and_eq_true] at due
    apply Abides.bind (fun _ => pre)
    · apply abides_modify
      rintro other rfl
      have allowed := watches other holds due.2
      exact ⟨allowed, permits.endures _ _ allowed holds⟩
    · exact fun _ => abides_whenPresent permits looks (abides_artifactCreated permits artifact)
  · exact fun other _ same => same ▸ holds

/-- The artifact of a workspace is watched then, if the workspace itself is. -/
theorem abides_watched (looks : may (.isPresent (Workspace.artifactPath workspace)))
    (artifact : PermitsArtifact may conduct bearable pre options
      (Workspace.ofArtifact (Workspace.artifactPath workspace)))
    (watches : ∀ state, pre state → isWatched state.1.registry workspace = true →
      conduct.allows state ({ state.1 with
        registry := state.1.registry.watchArtifact (Workspace.artifactPath workspace) }, state.2))
    (lasting : Endures conduct fun state => pre state
      ∧ (Workspace.manifestPath workspace ∈ state.1.registry.manifests →
        Workspace.artifactPath workspace ∈ state.1.registry.artifacts)) :
    Abides Disk.alone conduct bearable pre (watchArtifact project options workspace) fun _ state =>
      pre state ∧ (Workspace.manifestPath workspace ∈ state.1.registry.manifests →
        Workspace.artifactPath workspace ∈ state.1.registry.artifacts) := by
  apply abides_registry
  intro state holds
  apply abides_onlyIf
  · intro due
    have handles := (abides_whenPresent permits looks (abides_artifactCreated permits artifact)).frame
      lasting
    apply Abides.bind (fun _ state => pre state
      ∧ pre state ∧ (Workspace.manifestPath workspace ∈ state.1.registry.manifests →
          Workspace.artifactPath workspace ∈ state.1.registry.artifacts))
    · apply abides_modify
      rintro here rfl
      have allowed := watches here holds (Bool.and_eq_true_iff.mp due).2
      have after := permits.endures _ _ allowed holds
      exact ⟨allowed, after, after, fun _ => TextSet.mem_insert.mpr (Or.inl rfl)⟩
    · exact fun _ => handles.weaken fun _ _ ended => ended.2
  · rintro here undue rfl
    refine ⟨holds, fun watched => ?_⟩
    rw [isWatched, List.contains_iff_mem.mpr watched, Bool.and_true, Bool.not_eq_false',
      List.contains_iff_mem] at undue
    exact undue

omit permits in
/-- A workspace that was configured counts as one with a config, if it is watched. -/
theorem abides_bootstrapped {done : Engine × Disk → Prop}
    (configures : Abides Disk.alone conduct bearable pre (configure workspace false) fun _ => done)
    (gains : ∀ state, done state → isWatched state.1.registry workspace = true →
      conduct.allows state ({ state.1 with
          registry := state.1.registry.addReadiness workspace .onlyConfig }, state.2)
        ∧ done ({ state.1 with
          registry := state.1.registry.addReadiness workspace .onlyConfig }, state.2)) :
    Abides Disk.alone conduct bearable pre (bootstrapConfig workspace) fun _ state =>
      done state ∧ (Workspace.manifestPath workspace ∈ state.1.registry.manifests →
        (state.1.registry.readinessOf workspace).config = true) := by
  apply configures.bind
  intro _
  apply abides_registry
  intro state holds
  apply abides_onlyIf
  · intro watched
    apply abides_modify
    rintro other rfl
    obtain ⟨allowed, still⟩ := gains other holds watched
    refine ⟨allowed, still, fun _ => ?_⟩
    rw [Registry.readinessOf_addReadiness, if_pos rfl]
    exact Bool.or_true _
  · rintro _ unwatched rfl
    refine ⟨holds, fun watched => ?_⟩
    rw [isWatched, List.contains_iff_mem.mpr watched] at unwatched
    cases unwatched

theorem abides_bootstrapConfig (scans : may (.hasJsx workspace))
    (config : PermitsConfig may conduct pre (Workspace.configPath workspace))
    (gains : ∀ state, pre state → isWatched state.1.registry workspace = true →
      conduct.allows state ({ state.1 with
        registry := state.1.registry.addReadiness workspace .onlyConfig }, state.2)) :
    Abides Disk.alone conduct bearable pre (bootstrapConfig workspace) fun _ => pre :=
  (abides_bootstrapped (abides_configure permits config scans false) fun state holds watched =>
    have allowed := gains state holds watched
    ⟨allowed, permits.endures _ _ allowed holds⟩).weaken fun _ _ ended => ended.1

theorem abides_configureRoot (config : PermitsConfig may conduct pre configFile) :
    Abides Disk.alone conduct bearable pre (configureRoot project) fun _ => pre := by
  apply abides_engine
  intro state holds
  apply abides_onlyIf
  · intro _
    have configures (workspaces : List String) : Abides Disk.alone conduct bearable pre
        (do let _ ← Update.root project workspaces) fun _ => pre := by
      apply (abides_root permits config workspaces).bind
      exact fun _ => abides_pure fun _ => id
    exact (configures _).strengthen fun other same => same ▸ holds
  · exact fun other _ same => same ▸ holds

/-- Bringing up workspaces configures them and the root, and watches their artifacts. -/
theorem abides_bringUp {workspaces : List String} {generation : Nat}
    (scans : ∀ workspace ∈ workspaces, may (.hasJsx workspace))
    (looks : ∀ workspace ∈ workspaces, may (.isPresent (Workspace.artifactPath workspace)))
    (root : PermitsConfig may conduct pre configFile)
    (config : ∀ workspace ∈ workspaces, PermitsConfig may conduct pre (Workspace.configPath workspace))
    (artifact : ∀ workspace ∈ workspaces, PermitsArtifact may conduct bearable pre options
      (Workspace.ofArtifact (Workspace.artifactPath workspace)))
    (gains : ∀ workspace ∈ workspaces, ∀ state, pre state →
      isWatched state.1.registry workspace = true → conduct.allows state ({ state.1 with
        registry := state.1.registry.addReadiness workspace .onlyConfig }, state.2))
    (watches : ∀ workspace ∈ workspaces, ∀ state, pre state →
      isWatched state.1.registry workspace = true → conduct.allows state ({ state.1 with
        registry := state.1.registry.watchArtifact (Workspace.artifactPath workspace) }, state.2)) :
    Abides Disk.alone conduct bearable pre (bringUp project options workspaces generation)
      fun _ => pre := by
  apply abides_anyRegistry
  intro registry
  have within {workspace : String}
      (member : workspace ∈ workspaces.filter (registry.hasReadiness · .onlyManifest)) :
      workspace ∈ workspaces := (List.mem_filter.mp member).1
  apply abides_then
  · apply abides_group permits.endures
    intro workspace member
    exact (abides_bootstrapConfig permits (scans _ (within member)) (config _ (within member))
      (gains _ (within member))).weaken fun _ _ _ => trivial
  intro _
  apply abides_then (abides_configureRoot permits root)
  intro _
  apply abides_anyEngine
  intro _
  apply abides_whenever
  apply abides_then
  · apply abides_group permits.endures
    intro workspace member
    exact (abides_watchArtifact permits (looks _ (within member)) (artifact _ (within member))
      (watches _ (within member))).weaken fun _ _ _ => trivial
  · exact fun _ => abides_pure fun _ => id

/-! ### Handlers that leave names alone -/

omit permits in
theorem abides_keepNames {change : Registry → Registry} (endures : Endures conduct pre)
    (registries : PermitsRegistries conduct pre)
    (names : ∀ registry, (change registry).names = registry.names)
    (paths : ∀ registry, (change registry).paths = registry.paths)
    (manifests : ∀ registry, (change registry).manifests = registry.manifests) :
    Abides Disk.alone conduct bearable pre (modifyRegistry change) fun _ => pre := by
  apply abides_modify
  intro state holds
  have allowed := registries state (change state.1.registry) holds (names _) (paths _) (manifests _)
  exact ⟨allowed, endures _ _ allowed holds⟩

section

variable (registries : PermitsRegistries conduct pre)

include registries

/-- What follows a manifest that gave its workspace a name. -/
theorem abides_manifestLoaded {readyBefore : Bool} {manifest : Manifest}
    (scans : may (.hasJsx workspace)) (looks : may (.isPresent (Workspace.artifactPath workspace)))
    (root : PermitsConfig may conduct pre configFile)
    (config : PermitsConfig may conduct pre (Workspace.configPath workspace))
    (artifact : PermitsArtifact may conduct bearable pre options
      (Workspace.ofArtifact (Workspace.artifactPath workspace))) :
    Abides Disk.alone conduct bearable pre
      (manifestLoaded project options workspace readyBefore manifest) fun _ => pre := by
  have registers : Abides Disk.alone conduct bearable pre (registerDependencies manifest)
      fun _ => pre := by
    unfold registerDependencies
    split
    · exact abides_keepNames permits.endures registries (fun _ => rfl) (fun _ => rfl) fun _ => rfl
    · exact abides_pure fun _ => id
  apply abides_then registers
  intro _
  apply abides_anyRegistry
  intro _
  apply abides_then (abides_whenever (abides_bootstrapConfig permits scans config
    fun state holds _ => registries state _ holds rfl rfl rfl))
  intro _
  apply abides_anyRegistry
  intro _
  apply abides_then (abides_whenever (abides_configureRoot permits root))
  exact fun _ => abides_watchArtifact permits looks artifact
    fun state holds _ => registries state _ holds rfl rfl rfl

theorem abides_configPresent (looks : may (.isPresent (Workspace.artifactPath workspace)))
    (root : PermitsConfig may conduct pre configFile)
    (artifact : PermitsArtifact may conduct bearable pre options
      (Workspace.ofArtifact (Workspace.artifactPath workspace))) :
    Abides Disk.alone conduct bearable pre (configPresent project options workspace)
      fun _ => pre := by
  apply abides_anyRegistry
  intro _
  apply abides_whenever
  apply abides_then (abides_log permits _ _)
  intro _
  apply abides_then
  · exact abides_keepNames permits.endures registries (fun _ => rfl) (fun _ => rfl) fun _ => rfl
  intro _
  apply abides_anyRegistry
  intro _
  apply abides_whenever
  apply abides_then (abides_configureRoot permits root)
  exact fun _ => abides_whenPresent permits looks (abides_artifactWritten permits artifact)

theorem abides_configDeleted (root : PermitsConfig may conduct pre configFile) :
    Abides Disk.alone conduct bearable pre (configDeleted project workspace) fun _ => pre := by
  apply abides_anyRegistry
  intro _
  apply abides_whenever
  apply abides_then (abides_log permits _ _)
  intro _
  apply abides_then
  · exact abides_keepNames permits.endures registries (fun _ => rfl) (fun _ => rfl) fun _ => rfl
  exact fun _ => abides_whenever (abides_configureRoot permits root)

theorem abides_artifactDeleted (path : String) :
    Abides Disk.alone conduct bearable pre (artifactDeleted path) fun _ => pre := by
  apply abides_anyRegistry
  intro _
  apply abides_then (abides_log permits _ _)
  exact fun _ => abides_keepNames permits.endures registries (fun _ => rfl) (fun _ => rfl) fun _ => rfl

end

end

end Watch
end RefSync
