/-
Updates of documents among others that rely on something. An update reads a document and may
write it later; what it writes is told by the document that it read, and whoever permits the
write has to permit it in whatever state there is by then.
-/

import RefSync.Proofs.Config.Usable
import RefSync.Proofs.Disk.Accepts
import RefSync.Proofs.Routine.Abiding
import RefSync.Proofs.Watch.Updates

namespace RefSync

open Routine Path

/-! ### Reading and writing -/

namespace Routine

theorem objectOf_eq_ok {path : String} {given : Except ReadFault Json} {document : Document} :
    objectOf path given = .ok document ↔ given = .ok (.obj document) := by
  constructor
  · intro object
    unfold objectOf at object
    split at object <;> cases object
    rfl
  · rintro rfl
    rfl

theorem objectOf_eq_error {path : String} {given : Except ReadFault Json} {fault : Fault}
    (failed : objectOf path given = .error fault) : fault.isDocumentFault = true := by
  unfold objectOf at failed
  split at failed <;> cases failed <;> rfl

/-- A request that changes nothing. -/
theorem abides_look {conduct : Conduct Disk} {bearable : Fault → Prop} {pre : Engine × Disk → Prop}
    (endures : Endures conduct pre) (asked : Request)
    (still : ∀ state, (Disk.alone asked state).2 = state) :
    Abides Disk.alone conduct bearable pre (ask asked) fun given state =>
      pre state ∧ ∃ asks, pre asks ∧ given = (Disk.alone asked asks).1 := by
  have asks : Abides Disk.alone conduct bearable pre (ask asked) _ :=
    abides_ask asked endures fun state _ => by
      rw [still]
      exact conduct.refl state
  exact asks.weaken fun given state ⟨holds, asks, before, same, _⟩ => ⟨holds, asks, before, same⟩

/-- The answer to a look at files, where its faults are borne with. -/
theorem abides_orThrow {conduct : Conduct Disk} {bearable : Fault → Prop} {pre : Engine × Disk → Prop}
    {α : Type} {answer : Except ReadFault α}
    (borne : ∀ problem, answer = .error problem → bearable (.read problem)) :
    Abides Disk.alone conduct bearable pre (orThrow answer) fun value state =>
      pre state ∧ answer = .ok value :=
  abides_ofExcept (fun _ _ same holds => ⟨holds, same⟩) borne

end Routine

namespace Update

/-- What can go wrong in a state, with what a routine may ask for or with a lookup. Who may read a
document may write it too. -/
inductive Arises (project : Project) (may : Request → Prop) (state : Engine × Disk) :
    Fault → Prop where
  | unread {path : String} {fault : Fault} (touched : may (.read path))
      (known : (parts path).getLast? = some configFile →
        ∀ shown, state.2.read path ≠ .error (.missing shown))
      (failed : objectOf path (state.2.read path) = .error fault) : Arises project may state fault
  | unwritten {path : String} {document : Document} {problem : WriteFault} (touched : may (.read path))
      (failed : (state.2.write path document).1 = .error problem) :
      Arises project may state (.write problem)
  | unscanned {directory : String} {problem : ReadFault} (asked : may (.hasJsx directory))
      (failed : state.2.hasJsx directory = .error problem) :
      Arises project may state (.read problem)
  | unseen {path : String} {problem : ReadFault} (asked : may (.isPresent path))
      (failed : state.2.isPresent path = .error problem) :
      Arises project may state (.read problem)
  | unplaced {names : List String} {workspace : String} {fault : Fault}
      (failed : targetAliases project state.1.registry workspace names = .error fault) :
      Arises project may state fault
  | unrooted {workspaces : List String} {fault : Fault} (touched : may (.read configFile))
      (failed : rootReferences project workspaces = .error fault) : Arises project may state fault
  | unusable {path : String} {config : Document} {problem : Config.ReferenceFault}
      (touched : may (.read path)) (last : (parts path).getLast? = some configFile)
      (reads : state.2.read path = .ok (.obj config))
      (failed : Config.scalarPaths config = .error problem) :
      Arises project may state (.reference problem)
  | unnamed {workspace : String} {problem : RegistryFault}
      (ready : state.1.registry.isReady workspace = true)
      (failed : state.1.registry.nameOf workspace = .error problem) :
      Arises project may state (.registry problem)
  | unlearned {workspace name : String} {problem : RegistryFault}
      (named : state.1.registry.findName workspace = some name)
      (failed : state.1.registry.dependenciesOf name = .error problem) :
      Arises project may state (.registry problem)
  | unmapped {name dependent : String} {problem : RegistryFault}
      (member : dependent ∈ state.1.registry.dependentsOf name)
      (failed : state.1.registry.pathOf dependent = .error problem) :
      Arises project may state (.registry problem)

/-- What goes wrong is a matter of documents, a lookup that ends the process, or a config that
cannot be worked with. -/
theorem Arises.kinds {project : Project} {may : Request → Prop} {state : Engine × Disk}
    {fault : Fault} (arises : Arises project may state fault) :
    fault.isDocumentFault = true ∨ fault.isFatal = true
      ∨ ∃ path config problem, (parts path).getLast? = some configFile
        ∧ state.2.read path = .ok (.obj config) ∧ Config.scalarPaths config = .error problem := by
  cases arises with
  | unread _ _ failed => exact Or.inl (objectOf_eq_error failed)
  | unwritten => exact Or.inl rfl
  | unscanned => exact Or.inl rfl
  | unseen => exact Or.inl rfl
  | unplaced failed =>
      rw [targetAliases_eq_error failed]
      exact Or.inl rfl
  | unrooted _ failed =>
      rw [rootReferences_eq_error failed]
      exact Or.inl rfl
  | unusable _ last reads failed => exact Or.inr (Or.inr ⟨_, _, _, last, reads, failed⟩)
  | unnamed _ failed =>
      unfold Registry.nameOf at failed
      split at failed <;> cases failed
      exact Or.inr (Or.inl rfl)
  | unlearned _ failed =>
      unfold Registry.dependenciesOf at failed
      split at failed <;> cases failed
      exact Or.inr (Or.inl rfl)
  | unmapped _ failed =>
      unfold Registry.pathOf at failed
      split at failed <;> cases failed
      exact Or.inr (Or.inl rfl)

/-- What is permitted anyway: to log, and to fail over what can go wrong. -/
structure Permits (project : Project) (may : Request → Prop) (conduct : Conduct Disk)
    (bearable : Fault → Prop) (pre : Engine × Disk → Prop) : Prop where
  endures : Endures conduct pre
  notes state (engine : Engine) : pre state → engine.registry = state.1.registry →
    engine.active = state.1.active → engine.generation = state.1.generation →
    conduct.allows state (engine, state.2)
  faults state fault : pre state → Arises project may state fault → bearable fault

/-- Whether a config may be written that was made from one that was found. -/
structure PermitsConfig (may : Request → Prop) (conduct : Conduct Disk)
    (pre : Engine × Disk → Prop) (path : String) : Prop where
  touched : may (.read path)
  writes asks found updated now : pre asks → asks.2.Finds? path found → Config.Made found updated →
    pre now → conduct.allows now (now.1, (now.2.write path updated).2)

/-- Whether a manifest may be written that a change made from one that was read. -/
structure PermitsManifest (may : Request → Prop) (conduct : Conduct Disk)
    (pre : Engine × Disk → Prop) (path : String) (change : Document → Option Document) : Prop where
  touched : may (.read path)
  writes asks manifest updated now : pre asks → asks.2.read path = .ok (.obj manifest) →
    change manifest = some updated → pre now →
    conduct.allows now (now.1, (now.2.write path updated).2)

section

variable {project : Project} {may : Request → Prop} {conduct : Conduct Disk}
  {bearable : Fault → Prop} {pre : Engine × Disk → Prop} {workspace : String}
  (permits : Permits project may conduct bearable pre)

include permits

theorem abides_log (level : Level) (message : String) :
    Abides Disk.alone conduct bearable pre (log level message) fun _ => pre := by
  apply abides_modify
  intro state holds
  have allowed := permits.notes state
    { state.1 with log := state.1.log ++ [⟨level, message⟩] } holds rfl rfl rfl
  exact ⟨allowed, permits.endures _ _ allowed holds⟩

theorem abides_readObject {path : String} (touched : may (.read path))
    (manifest : (parts path).getLast? = some manifestFile) :
    Abides Disk.alone conduct bearable pre (readObject path) fun document state =>
      pre state ∧ ∃ asks, pre asks ∧ asks.2.read path = .ok (.obj document) := by
  apply (abides_look permits.endures (.read path) fun _ => rfl).follow
  rintro given ⟨asks, before, rfl⟩
  apply abides_ofExcept
  · intro document state object holds
    exact ⟨holds, asks, before, objectOf_eq_ok.mp object⟩
  · intro problem failed
    apply permits.faults asks problem before
    refine .unread touched (fun config => ?_) failed
    rw [manifest] at config
    exact absurd config (by decide)

/-- A document that is looked for is found in some state, and the others go on from there. -/
theorem abides_lookFor {path : String} (touched : may (.read path)) :
    Abides Disk.alone conduct bearable pre (readObject? path) fun found state =>
      ∃ asks, (pre state ∧ conduct.allows asks state) ∧ pre asks ∧ asks.2.Finds? path found := by
  have asks : Abides Disk.alone conduct bearable pre (ask (.read path)) _ :=
    abides_ask (.read path) permits.endures fun state _ => conduct.refl state
  have given : Abides Disk.alone conduct bearable pre (ask (.read path)) fun given state =>
      ∃ asks : Engine × Disk, (pre state ∧ conduct.allows asks state)
        ∧ pre asks ∧ asks.2.read path = given := by
    apply asks.weaken
    rintro given state ⟨holds, asks, before, same, since⟩
    exact ⟨asks, ⟨holds, since⟩, before, same.symm⟩
  apply given.bind
  intro given
  apply Abides.some
  intro asks
  apply Abides.given
  rintro ⟨before, reads⟩
  split
  · rename_i shown
    exact abides_pure fun state holds => ⟨asks, holds, before, shown, reads⟩
  · rename_i other
    have object : Abides Disk.alone conduct bearable (fun state => pre state ∧ conduct.allows asks state)
        (ofExcept id (objectOf path given)) fun document state =>
          (pre state ∧ conduct.allows asks state) ∧ given = .ok (.obj document) := by
      apply abides_ofExcept
      · intro document state object holds
        exact ⟨holds, objectOf_eq_ok.mp object⟩
      · intro problem failed
        apply permits.faults asks problem before
        exact .unread touched (fun _ shown missing => other shown (reads.symm.trans missing))
          (reads ▸ failed)
    apply object.follow
    rintro document rfl
    exact abides_pure fun state holds => ⟨asks, holds, before, reads⟩

theorem abides_readObject? {path : String} (touched : may (.read path)) :
    Abides Disk.alone conduct bearable pre (readObject? path) fun found state =>
      pre state ∧ ∃ asks, pre asks ∧ asks.2.Finds? path found :=
  (abides_lookFor permits touched).weaken fun _ _ ⟨asks, holds, before, finds⟩ =>
    ⟨holds.1, asks, before, finds⟩

/-- Writing a document, with what holds once it is written. -/
theorem abides_put {path : String} {document : Document} {post : Engine × Disk → Prop}
    (touched : may (.read path)) (lasting : Endures conduct post)
    (permitted : ∀ state, pre state →
      conduct.allows state (state.1, (state.2.write path document).2)
        ∧ ((state.2.write path document).1 = .ok () → post (state.1, (state.2.write path document).2))) :
    Abides Disk.alone conduct bearable pre (writeDocument path document) fun _ state =>
      pre state ∧ post state := by
  have asks : Abides Disk.alone conduct bearable pre (ask (.write path document)) _ :=
    abides_ask (.write path document) permits.endures fun state holds => by
      rw [Disk.alone_write]
      exact (permitted state holds).1
  have given : Abides Disk.alone conduct bearable pre (ask (.write path document))
      fun given state => ∃ asked : Engine × Disk, (pre state ∧ (given = .ok () → post state))
        ∧ pre asked ∧ given = (asked.2.write path document).1 := by
    apply asks.weaken
    rintro given state ⟨holds, asked, before, same, since⟩
    rw [Disk.alone_write] at same since
    refine ⟨asked, ⟨holds, fun done => ?_⟩, before, same⟩
    exact lasting _ _ since ((permitted asked before).2 (same.symm.trans done))
  apply given.bind
  intro given
  apply Abides.some
  intro asked
  apply Abides.given
  rintro ⟨before, rfl⟩
  apply abides_ofExcept
  · exact fun _ _ done holds => ⟨holds.1, holds.2 done⟩
  · exact fun problem failed => permits.faults asked _ before (.unwritten touched failed)

theorem abides_writeDocument {path : String} {document : Document} (touched : may (.read path))
    (permitted : ∀ state, pre state →
      conduct.allows state (state.1, (state.2.write path document).2)) :
    Abides Disk.alone conduct bearable pre (writeDocument path document) fun _ => pre :=
  (abides_put permits touched endures_true fun state holds =>
    ⟨permitted state holds, fun _ => trivial⟩).weaken fun _ _ ended => ended.1

/-- Writing a document and saying so. -/
theorem abides_written {path message : String} {document : Document} (touched : may (.read path))
    (permitted : ∀ state, pre state →
      conduct.allows state (state.1, (state.2.write path document).2)) :
    Abides Disk.alone conduct bearable pre
      (do writeDocument path document; log .info message; return true) fun _ => pre := by
  apply (abides_writeDocument permits touched permitted).bind
  intro _
  apply (abides_log permits _ _).bind
  exact fun _ => abides_pure fun _ => id

/-! ### The updates -/

/-- Names that are resolved as they are registered at the moment. -/
theorem abides_resolves {β : Type} {rest : Registry → Table String → Routine β}
    {names : Registry → List String} {post : β → Engine × Disk → Prop}
    (goesOn : ∀ registry aliases, Abides Disk.alone conduct bearable pre (rest registry aliases) post) :
    Abides Disk.alone conduct bearable pre (registry >>= fun registry =>
      ofExcept id (targetAliases project registry workspace (names registry)) >>= rest registry)
      post := by
  apply abides_registry
  intro state holds
  cases resolved : targetAliases project state.1.registry workspace (names state.1.registry) with
  | ok aliases => exact (goesOn state.1.registry aliases).strengthen fun other same => same ▸ holds
  | error problem => exact abides_throw (permits.faults state problem holds (.unplaced resolved))

/-- An update of the references of a config, or of a fresh one where there is none: it fails over
references that cannot be read, and writes what it changed. -/
theorem abides_revised {path message : String} (config : PermitsConfig may conduct pre path)
    (last : (parts path).getLast? = some configFile) {asks : Engine × Disk} (before : pre asks)
    {found : Option Document} (finds : asks.2.Finds? path found) {fresh : Document}
    (clean : Document.Clean fresh) (usable : Config.Usable fresh)
    {update : Except Config.ReferenceFault (Option Document)}
    (fails : ∀ problem, update = .error problem →
      Config.scalarPaths (found.getD fresh) = .error problem)
    (revises : ∀ document, update = .ok (some document) →
      Config.Revises (found.getD fresh) document) :
    Abides Disk.alone conduct bearable pre (do
      match ← ofExcept Fault.reference update with
      | none => return false
      | some updated =>
          writeDocument path updated
          log .info message
          return true) fun _ => pre := by
  have updates : Abides Disk.alone conduct bearable pre (ofExcept Fault.reference update)
      fun given state => pre state ∧ update = .ok given := by
    apply abides_ofExcept
    · exact fun given state same holds => ⟨holds, same⟩
    · intro problem failed
      have unusable := fails problem failed
      cases found with
      | none =>
          obtain ⟨paths, scalar⟩ := usable
          rw [Option.getD_none, scalar] at unusable
          cases unusable
      | some document =>
          exact permits.faults asks _ before (.unusable config.touched last finds unusable)
  apply updates.follow
  intro given updated
  cases given with
  | none => exact abides_pure fun _ => id
  | some document =>
      apply abides_written permits config.touched
      intro state holds
      have revised := revises document updated
      cases found with
      | none =>
          exact config.writes asks none document state before finds (revised.makes clean usable) holds
      | some present =>
          exact config.writes asks (some present) document state before finds
            (revised.made (Document.clean_obj.mp (Disk.clean_of_read finds))) holds

theorem abides_references (config : PermitsConfig may conduct pre (Workspace.configPath workspace))
    (names : List String) :
    Abides Disk.alone conduct bearable pre (references project workspace names) fun _ => pre := by
  apply abides_resolves permits
  intro registry aliases
  apply (abides_readObject? permits config.touched).follow
  rintro found ⟨asks, before, finds⟩
  have known : ∀ path ∈ aliases.keys, (aliases.get? path).isSome :=
    fun path member => Table.mem_keys_iff.mp member
  exact abides_revised permits config (Workspace.last_configPath workspace) before finds
    (Config.clean_newWorkspace false) (Config.usable_newWorkspace false)
    (fun _ => Config.updateReferences?_eq_error known)
    fun _ => Config.revises_updateReferences known

theorem abides_aliases (config : PermitsConfig may conduct pre (Workspace.configPath workspace))
    (renamed : Option (String × String)) :
    Abides Disk.alone conduct bearable pre (aliases project workspace renamed) fun _ => pre := by
  apply abides_resolves permits
  intro _ _
  apply (abides_readObject? permits config.touched).follow
  rintro found ⟨asks, before, finds⟩
  cases found with
  | none => exact abides_pure fun _ => id
  | some present =>
      exact abides_revised permits config (Workspace.last_configPath workspace) before finds
        Document.clean_empty Config.usable_empty (fun _ => Config.renamedConfig?_eq_error)
        fun _ => Config.revises_renamedConfig

theorem abides_dependencies {missing redundant : List String}
    (manifest : PermitsManifest may conduct pre (Workspace.manifestPath workspace)
      (Manifest.updateDependencies? · missing redundant)) :
    Abides Disk.alone conduct bearable pre (dependencies workspace missing redundant)
      fun _ => pre := by
  apply abides_anyRegistry
  intro registry
  apply (abides_readObject permits manifest.touched (Workspace.last_manifestPath workspace)).follow
  rintro document ⟨asks, before, reads⟩
  cases update : Manifest.updateDependencies? document missing redundant with
  | none => exact abides_pure fun _ => id
  | some updated =>
      exact abides_written permits manifest.touched fun state holds =>
        manifest.writes asks document updated state before reads update holds

theorem abides_dependencyName {old new : String}
    (manifest : PermitsManifest may conduct pre (Workspace.manifestPath workspace)
      (Manifest.renameDependency? · old new)) :
    Abides Disk.alone conduct bearable pre (dependencyName workspace old new) fun _ => pre := by
  apply abides_anyRegistry
  intro registry
  apply (abides_readObject permits manifest.touched (Workspace.last_manifestPath workspace)).follow
  rintro document ⟨asks, before, reads⟩
  cases update : Manifest.renameDependency? document old new with
  | none => exact abides_pure fun _ => id
  | some updated =>
      exact abides_written permits manifest.touched fun state holds =>
        manifest.writes asks document updated state before reads update holds

/-- A rename is carried to workspaces that are registered. -/
theorem abides_name {registry : Registry} {old new : String}
    (config : ∀ name workspace, registry.findPath name = some workspace →
      PermitsConfig may conduct pre (Workspace.configPath workspace))
    (manifest : ∀ name workspace, registry.findPath name = some workspace →
      PermitsManifest may conduct pre (Workspace.manifestPath workspace)
        (Manifest.renameDependency? · old new)) :
    Abides Disk.alone conduct bearable (fun state => pre state ∧ state.1.registry = registry)
      (name project old new) fun _ => pre := by
  apply abides_registry
  rintro state ⟨holds, rfl⟩
  have renames : Abides Disk.alone conduct bearable pre (do
      let workspaces ← ofExcept Fault.registry
        ((state.1.registry.dependentsOf new).mapM state.1.registry.pathOf)
      let _ ← forAll workspaces fun workspace => do
        let _ ← dependencyName workspace old new
        aliases project workspace (some (old, new))
      return state.1.registry.dependentsOf new) fun _ => pre := by
    have finds : Abides Disk.alone conduct bearable pre (ofExcept Fault.registry
        ((state.1.registry.dependentsOf new).mapM state.1.registry.pathOf))
        fun workspaces now => pre now ∧ ∀ workspace ∈ workspaces, ∃ name,
          state.1.registry.findPath name = some workspace := by
      apply abides_ofExcept
      · intro workspaces now mapped before
        refine ⟨before, fun workspace member => ?_⟩
        obtain ⟨name, _, found⟩ := (mem_mapM mapped workspace).mp member
        refine ⟨name, ?_⟩
        unfold Registry.pathOf at found
        split at found <;> cases found
        assumption
      · intro problem failed
        obtain ⟨dependent, member, unregistered⟩ := mapM_eq_error failed
        exact permits.faults state _ holds (.unmapped member unregistered)
    apply finds.follow
    intro workspaces registered
    apply abides_then
    · apply abides_group permits.endures
      intro workspace member
      obtain ⟨name, found⟩ := registered workspace member
      apply (abides_dependencyName permits (manifest name workspace found)).bind
      intro _
      exact (abides_aliases permits (config name workspace found) _).weaken fun _ _ _ => trivial
    · exact fun _ => abides_pure fun _ => id
  exact renames.strengthen fun other same => same ▸ holds

/-- Configuring a workspace, with what holds of a config that has what a build needs. -/
theorem abides_configured {post : Engine × Disk → Prop}
    (touched : may (.read (Workspace.configPath workspace))) (scans : may (.hasJsx workspace))
    (force : Bool) (lasting : Endures conduct post)
    (writes : ∀ asks found updated now, pre asks →
      asks.2.Finds? (Workspace.configPath workspace) found → Config.Made found updated →
      Config.Satisfactory updated → pre now →
      conduct.allows now (now.1, (now.2.write (Workspace.configPath workspace) updated).2)
        ∧ ((now.2.write (Workspace.configPath workspace) updated).1 = .ok () →
          post (now.1, (now.2.write (Workspace.configPath workspace) updated).2)))
    (stays : ∀ state config, pre state →
      state.2.read (Workspace.configPath workspace) = .ok (.obj config) →
      Config.Satisfactory config → post state) :
    Abides Disk.alone conduct bearable pre (configure workspace force) fun _ state =>
      pre state ∧ post state := by
  apply (abides_look permits.endures (.hasJsx workspace) fun _ => rfl).follow
  rintro given ⟨looks, looked, rfl⟩
  apply (abides_orThrow fun problem failed =>
    permits.faults looks _ looked (.unscanned scans failed)).follow
  intro jsx _
  apply (abides_lookFor permits touched).bind
  intro found
  apply Abides.some
  intro asks
  apply Abides.given
  rintro ⟨before, finds⟩
  have written (updated : Document) (made : Config.Made found updated)
      (satisfactory : Config.Satisfactory updated) : Abides Disk.alone conduct bearable
      (fun state => pre state ∧ conduct.allows asks state) (do
        writeDocument (Workspace.configPath workspace) updated
        log .info ("Configured " ++ label (← registry) workspace ++ " tsconfig.json")
        return true) fun _ state => pre state ∧ post state := by
    have puts := abides_put permits touched lasting fun state holds =>
      writes asks found updated state before finds made satisfactory holds
    refine Abides.strengthen ?_ fun _ holds => holds.1
    apply puts.bind
    intro _
    apply abides_anyRegistry
    intro registry
    apply ((abides_log permits _ _).frame lasting).bind
    exact fun _ => abides_pure fun _ => id
  cases found with
  | none => exact written _ (Config.made_newWorkspace jsx) (Config.satisfactory_newWorkspace jsx)
  | some present =>
      have clean : Document.Clean present := Document.clean_obj.mp (Disk.clean_of_read finds)
      rcases Config.configure?_cases clean jsx force with update | ⟨update, satisfactory⟩
      · simp only [update]
        exact written _ ((Config.revises_configure update).made clean)
          (Config.satisfactory_repaired present jsx)
      · simp only [update]
        exact abides_pure fun _ ⟨holds, since⟩ =>
          ⟨holds, lasting _ _ since (stays asks present before finds satisfactory)⟩

theorem abides_configure (config : PermitsConfig may conduct pre (Workspace.configPath workspace))
    (scans : may (.hasJsx workspace)) (force : Bool) :
    Abides Disk.alone conduct bearable pre (configure workspace force) fun _ => pre :=
  (abides_configured permits config.touched scans force endures_true
    (fun asks found updated now before finds made _ holds =>
      ⟨config.writes asks found updated now before finds made holds, fun _ => trivial⟩)
    fun _ _ _ _ _ => trivial).weaken fun _ _ ended => ended.1

/-- The root config is made to reference what can be referenced. -/
theorem abides_root (config : PermitsConfig may conduct pre configFile) (workspaces : List String) :
    Abides Disk.alone conduct bearable pre (root project workspaces) fun _ => pre := by
  apply (abides_readObject? permits config.touched).follow
  rintro found ⟨asks, before, finds⟩
  have resolves : Abides Disk.alone conduct bearable pre
      (ofExcept id (rootReferences project workspaces)) fun _ state => pre state ∧ True := by
    apply abides_ofExcept
    · exact fun _ _ _ holds => ⟨holds, trivial⟩
    · exact fun problem failed => permits.faults asks _ before (.unrooted config.touched failed)
  apply resolves.follow
  intro target _
  exact abides_revised permits config (by decide) before finds Document.clean_empty
    Config.usable_empty (fun _ => Config.updateRoot?_eq_error) fun _ => Config.revises_updateRoot

end

end Update
end RefSync
