/-
The manifest of a workspace and the root config. A manifest that is read again may make its
workspace ready, or end that; the handler compares before and after, and where they differ it
brings the root config in line.
-/

import RefSync.Proofs.Watch.Aggregate

namespace RefSync

open Routine Path Update

namespace Watch

variable {project : Project} {options : SyncOptions} {now : Engine × Disk} {config : Document}
  {workspace : String}

/-- What a manifest that was read may have made of the state it was read in. -/
structure Reloads (project : Project) (config : Document) (workspace : String)
    (now : Engine × Disk) (result : Except Failure (Option Manifest)) (later : Engine × Disk) :
    Prop where
  stands : Stands project now config (· = workspace) later
  refused failure : result = .error failure →
    later.1.registry.readinessOf workspace = now.1.registry.readinessOf workspace
  lost : result = .ok none →
    later.1.registry.isReady workspace = true → now.1.registry.isReady workspace = true
  named manifest : result = .ok (some manifest) →
    (later.1.registry.readinessOf workspace).config = (now.1.registry.readinessOf workspace).config

/-- Nothing is different as far as the root config goes. -/
theorem reloads_of_stands {later : Engine × Disk}
    (stands : Stands project now config (fun _ => False) later)
    (result : Except Failure (Option Manifest)) :
    Reloads project config workspace now result later where
  stands := { stands with readinessOf := fun other _ => stands.readinessOf other id }
  refused _ _ := stands.readinessOf workspace id
  lost _ ready := by
    rw [← Registry.isReady_congr (stands.readinessOf workspace id)]
    exact ready
  named _ _ := congrArg Readiness.config (stands.readinessOf workspace id)

/-- The workspace has a name, and then it was confirmed. -/
theorem reloads_confirmed {later : Engine × Disk} {manifest : Manifest}
    (named : Stands project now config (· = workspace) later)
    (bit : (later.1.registry.readinessOf workspace).config
      = (now.1.registry.readinessOf workspace).config) :
    Reloads project config workspace now (.ok (some manifest))
      ({ later.1 with registry := later.1.registry.addReadiness workspace .onlyName }, later.2) := by
  refine ⟨{ named with readinessOf := fun other differs => ?_ }, nofun, nofun, fun _ _ => ?_⟩
  · exact (Registry.readinessOf_addReadiness ..).trans
      ((if_neg differs).trans (named.readinessOf other differs))
  · change ((later.1.registry.addReadiness workspace .onlyName).readinessOf workspace).config = _
    rw [Registry.readinessOf_addReadiness, if_pos rfl, ← bit]
    exact Bool.or_false _

section

variable (stands : Stands project now config (fun _ => False) now)

include stands

/-- The workspace lost its name, or its manifest too. -/
theorem reloads_unregister {registry : Registry} {lost : Readiness} (name : lost.name = true)
    (manifests : registry.manifests = now.1.registry.manifests)
    (others : ∀ other, other ≠ workspace →
      registry.readinessOf other = now.1.registry.readinessOf other)
    (same : isWatched now.1.registry workspace = false → registry = now.1.registry)
    (log : List LogRecord) :
    Reloads project config workspace now (.ok none)
      ({ now.1 with registry := unregister registry workspace lost, log := log }, now.2) := by
  have still := (unregister_others registry workspace lost).1.trans manifests
  cases watched : isWatched registry workspace with
  | false =>
      rw [unregister_of_unwatched watched,
        same (by rw [isWatched, ← manifests]; exact watched)]
      have noted : Stands project now config (fun _ => False) ({ now.1 with log := log }, now.2) :=
        { stands with }
      exact reloads_of_stands noted _
  | true =>
      have readiness := readinessOf_unregister watched lost
      refine ⟨{ stands with manifests := still, readinessOf := fun other differs => ?_ },
        (fun _ impossible => by cases impossible), fun _ ready => ?_, fun _ impossible => by cases impossible⟩
      · exact (readiness other).trans ((if_neg differs).trans (others other differs))
      · have all := (readiness workspace).symm.trans (Registry.isReady_iff.mp ready)
        rw [if_pos rfl] at all
        have bit : ((registry.readinessOf workspace).name && !lost.name) = true :=
          congrArg Readiness.name all
        rw [name, Bool.not_true, Bool.and_false] at bit
        cases bit

end

/-- A workspace that is watched lies below the root. -/
theorem Following.below (following : Following project now)
    (watches : now.1.registry.Watches workspace) : workspace ≠ "." :=
  fun same => following.poised.below (same ▸ watches.2)

section

variable (following : Following project now) (sound : now.1.registry.Sound project)

include following sound

/-- A rename reaches the documents of workspaces only. -/
theorem leads_rename {name previous : String} {renamed : Registry} {manifest : Manifest}
    {old : String} (stands : Stands project now config (fun _ => False) now)
    (named : now.1.registry.findName workspace = some previous)
    (renames : (now.1.registry.addReadiness workspace .onlyManifest).rename workspace name
      = .ok (renamed, old)) (log : List LogRecord) :
    Leads Disk.alone (Update.name project previous name >>= fun _ =>
      confirmName workspace name manifest) ({ now.1 with registry := renamed, log := log }, now.2)
      (Reloads project config workspace now) := by
  have watches := sound.watches_of_named named
  have change := Registry.rename_eq_ok renames
  have soundAfter : renamed.Sound project := (sound.addReadiness watches .onlyManifest nofun).rename change
  have others := change.gives.others
  have manifests : renamed.manifests = now.1.registry.manifests := by
    cases renamed
    cases others
    rfl
  have readiness : renamed.readiness
      = (now.1.registry.addReadiness workspace .onlyManifest).readiness := by
    cases renamed
    cases others
    rfl
  -- A workspace with a name counts as one with a manifest already.
  have kept (other : String) :
      renamed.readinessOf other = now.1.registry.readinessOf other := by
    have bit : (now.1.registry.readinessOf workspace).manifest = true :=
      sound.manifestBit workspace ((sound.nameBit workspace).mpr (by rw [named]; rfl))
    rw [Registry.readinessOf, readiness]
    exact Registry.readinessOf_addManifest bit other
  have begins : Stands project now config (fun _ => False)
      ({ now.1 with registry := renamed, log := log }, now.2) :=
    { stands with manifests := manifests, readinessOf := fun other _ => kept other }
  have below (other : String) (watches : renamed.Watches other) : other ≠ "." :=
    following.below ⟨watches.1, manifests ▸ watches.2⟩
  have permits : Permits project (fun _ => True) (.preserving (Stands project now config fun _ => False))
      (fun _ => True) (Stands project now config fun _ => False) := permits_stands
  have configs (name other : String) (found : renamed.findPath name = some other) :
      PermitsConfig (fun _ => True) (.preserving (Stands project now config fun _ => False))
        (Stands project now config fun _ => False) (Workspace.configPath other) := by
    have watches := soundAfter.watches_of_named ((soundAfter.inverse other name).mpr found)
    exact permitsConfig_stands (soundAfter.relative watches) (below other watches)
  have carries : Leads Disk.alone (Update.name project previous name)
      ({ now.1 with registry := renamed, log := log }, now.2) _ :=
    (abides_name permits configs fun _ other _ => permitsManifest_stands other _).leads ⟨begins, rfl⟩
  apply carries.bind
  · rintro dependents later ⟨_, after⟩
    unfold confirmName
    apply leads_registry
    by_cases holds : later.1.registry.findName workspace = some name
    · rw [if_pos holds]
      apply leads_modifyRegistry
      apply leads_pure
      exact reloads_confirmed
        { after with readinessOf := fun other _ => after.readinessOf other id }
        (congrArg Readiness.config (after.readinessOf workspace id))
    · rw [if_neg holds]
      exact leads_pure (reloads_of_stands after _)
  · rintro failure later ⟨after, _⟩
    exact reloads_of_stands (after begins) _

theorem leads_reload (stands : Stands project now config (fun _ => False) now) :
    Leads Disk.alone (loadManifest project workspace) now
      (Reloads project config workspace now) := by
  apply leads_loadManifest
  · exact fun _ _ _ _ => reloads_of_stands stands _
  · exact fun _ _ => reloads_unregister stands rfl rfl (fun _ _ => rfl) fun _ => rfl
  · intro manifest _
    apply leads_registerManifest
    · exact fun _ => reloads_of_stands stands _
    · intro watched _
      refine reloads_unregister stands rfl rfl (fun other differs => ?_) fun unwatched => ?_
      · exact (Registry.readinessOf_addReadiness ..).trans (if_neg differs)
      · rw [watched] at unwatched
        cases unwatched
    · intro _ name assigned previous _ _ given
      have others := (Registry.setName_eq_ok given).1.others
      have readiness (other : String) : assigned.readinessOf other
          = (now.1.registry.addReadiness workspace .onlyManifest).readinessOf other := by
        rw [others]
        rfl
      have after : Stands project now config (· = workspace)
          ({ now.1 with registry := assigned }, now.2) :=
        { stands with
          manifests := by rw [others]; rfl
          readinessOf := fun other differs => (readiness other).trans
            ((Registry.readinessOf_addReadiness ..).trans (if_neg differs)) }
      apply reloads_confirmed after
      rw [readiness, Registry.readinessOf_addReadiness, if_pos rfl]
      exact Bool.or_false _
    · intro _ name previous renamed old _ named _ renames log
      exact leads_rename following sound stands named renames log

end

/-! ### The handlers -/

section

variable (following : Following project now)

include following

/-- Giving the workspace its config, it may become ready; failing to do so, it does not. -/
theorem leads_bootstrap {later : Engine × Disk} (relative : project.IsRelative workspace)
    (below : workspace ≠ ".") (stands : Stands project now config (· = workspace) later)
    (lacks : (later.1.registry.readinessOf workspace).config = false)
    (lacked : (now.1.registry.readinessOf workspace).config = false) :
    Leads Disk.alone (bootstrapConfig workspace) later fun result after =>
      Stands project now config (· = workspace) after
        ∧ ∀ failure, result = .error failure → Following project after := by
  -- Until the config is there the workspace is as little ready as before.
  have unready {registry : Registry} (bit : (registry.readinessOf workspace).config = false) :
      registry.isReady workspace = false := by
    rw [Bool.eq_false_iff, Ne, Registry.isReady_iff]
    intro all
    rw [all] at bit
    cases bit
  have configures : Leads Disk.alone (configure workspace false) later _ :=
    (abides_configure permits_stands (permitsConfig_stands relative below) trivial false).leads stands.here
  unfold bootstrapConfig
  apply configures.bind
  · rintro wrote after ⟨_, still⟩
    apply leads_registry
    apply leads_onlyIf
    · intro _
      have gains : Stands project now config (· = workspace) ({ after.1 with
          registry := after.1.registry.addReadiness workspace .onlyConfig }, after.2) :=
        { stands.trans still with
          readinessOf := fun other differs => (Registry.readinessOf_addReadiness ..).trans
            ((if_neg differs).trans ((stands.trans still).readinessOf other differs)) }
      exact fun _ => ⟨gains, nofun⟩
    · exact fun _ => ⟨stands.trans still, nofun⟩
  · rintro failure after ⟨kept, _⟩
    have still := kept stands.here
    refine ⟨stands.trans still, fun _ _ => (stands.trans still).stays following ?_⟩
    rintro _ rfl
    rw [unready lacked, unready (by rw [still.readinessOf _ id]; exact lacks)]

/-- What follows a manifest that gave its workspace a name. -/
theorem leads_manifestLoaded {later : Engine × Disk} {manifest : Manifest}
    (relative : project.IsRelative workspace) (below : workspace ≠ ".")
    (stands : Stands project now config (· = workspace) later)
    (bit : (later.1.registry.readinessOf workspace).config
      = (now.1.registry.readinessOf workspace).config) :
    Leads Disk.alone (manifestLoaded project options workspace
      (now.1.registry.isReady workspace) manifest) later fun _ after => Following project after := by
  -- The dependencies are nothing to the root config.
  have registers {rest : Unit → Routine Unit} {post : Except Failure Unit → Engine × Disk → Prop}
      (goesOn : ∀ after : Engine × Disk, Stands project now config (· = workspace) after →
        (after.1.registry.readinessOf workspace).config
          = (now.1.registry.readinessOf workspace).config →
        Leads Disk.alone (rest ()) after post) :
      Leads Disk.alone (registerDependencies manifest >>= rest) later post := by
    unfold registerDependencies
    split
    · exact leads_modifyRegistry (goesOn _ { stands with } bit)
    · exact goesOn later stands bit
  unfold manifestLoaded
  apply registers
  intro after stands bit
  apply leads_registry
  apply leads_whenever
  · intro lacks
    have missing : (after.1.registry.readinessOf workspace).config = false :=
      Registry.hasReadiness_config.symm.trans (Bool.not_eq_true' _ ▸ lacks)
    exact leads_bootstrap following relative below stands missing (bit ▸ missing)
  · exact fun _ => ⟨stands, nofun⟩
  · rintro after ⟨stands, _⟩
    apply leads_registry
    apply leads_whenever
    · exact fun _ => stands.reconfigures following
    · intro same
      apply stands.stays following
      rintro _ rfl
      exact bne_eq_false_iff_eq.mp same
    · exact fun _ follows => leads_watchArtifact follows relative below
    · exact fun _ _ => id
  · exact fun failure after ended => ended.2 failure rfl

theorem leads_manifestWritten {path : String} (sound : now.1.registry.Sound project)
    (watched : path ∈ now.1.registry.manifests) :
    Leads Disk.alone (manifestWritten project options path) now
      fun _ later => Following project later := by
  obtain ⟨watches, _, relative⟩ := sound.watches_ofDocument watched
  have below := following.below watches
  obtain ⟨config, begins⟩ := following.stands fun _ => False
  unfold manifestWritten
  apply leads_registry
  apply (leads_reload following sound begins).bind
  · intro loaded later reloads
    cases loaded with
    | none =>
        apply leads_onlyIf
        · exact fun _ => reloads.stands.reconfigures following
        · intro unready
          apply reloads.stands.stays following
          rintro _ rfl
          rw [unready, Bool.eq_false_iff]
          intro ready
          rw [reloads.lost rfl ready] at unready
          cases unready
    | some manifest =>
        exact leads_manifestLoaded following relative below reloads.stands (reloads.named manifest rfl)
  · intro failure later reloads
    apply reloads.stands.stays following
    rintro _ rfl
    exact Registry.isReady_congr (reloads.refused failure rfl)

theorem leads_manifestDeleted {path : String} :
    Leads Disk.alone (manifestDeleted project path) now
      fun _ later => Following project later := by
  unfold manifestDeleted
  apply leads_log
  apply leads_modifyRegistry
  apply following.reconfigures
  · rfl
  · exact (unregister_others _ _ _).1

end

end Watch
end RefSync
