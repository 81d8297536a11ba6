/-
What a manifest that was read does to the registry, with nobody else at work. A manifest that
says nothing usable takes the name of its workspace; one with the name that the workspace has
confirms it; one with another name that is free leads to a rename.
-/

import RefSync.Proofs.Routine.Alone
import RefSync.Proofs.Watch.Loading

namespace RefSync

open Routine Path

namespace Watch

variable {project : Project} {workspace : String} {now : Engine × Disk}
  {post : Except Failure (Option Manifest) → Engine × Disk → Prop}

theorem leads_withoutName {lost : Readiness} {message : String}
    (loses : ∀ log, post (.ok none)
      ({ now.1 with registry := unregister now.1.registry workspace lost, log := log }, now.2)) :
    Leads Disk.alone
      (do
        log .warning message
        modifyRegistry (unregister · workspace lost)
        return none) now post :=
  fun _ => loses _

section

variable {manifest : Manifest} {name : String} {registry : Registry}
  {settle : Except RegistryFault Unit → Routine (Option Manifest)}
  (confirms : settle (.ok ()) = confirmName workspace name manifest)
  (refuses : ∀ holder, settle (.error (.nameTaken name holder workspace))
    = withoutName workspace (RegistryFault.nameTaken name holder workspace).message)
  (taken : (∃ holder, registry.findPath name = some holder ∧ holder ≠ workspace) → ∀ log,
    post (.ok none) ({ now.1 with
      registry := unregister registry workspace .onlyName, log := log }, now.2))

include confirms refuses taken

/-- A name that is assigned is confirmed. One that another workspace has is refused. -/
theorem leads_assignName
    (assigned : ∀ after previous, registry.setName workspace name = .ok (after, previous) →
      post (.ok (some manifest))
        ({ now.1 with registry := after.addReadiness workspace .onlyName }, now.2)) :
    Leads Disk.alone (assignName registry workspace name >>= settle)
      ({ now.1 with registry := registry }, now.2) post := by
  unfold assignName
  cases set : registry.setName workspace name with
  | error fault =>
      obtain ⟨holder, rfl, held⟩ := Registry.setName_eq_error set
      change Leads Disk.alone (settle (.error (.nameTaken name holder workspace))) _ post
      rw [refuses]
      exact leads_withoutName (taken ⟨holder, held⟩)
  | ok result =>
      obtain ⟨after, previous⟩ := result
      have holds : after.findName workspace = some name :=
        ((Registry.setName_eq_ok set).1.findName workspace).trans (if_pos rfl)
      change Leads Disk.alone (settle (.ok ())) ({ now.1 with registry := after }, now.2) post
      rw [confirms]
      unfold confirmName
      apply leads_registry
      rw [if_pos holds]
      apply leads_modifyRegistry
      exact leads_pure (assigned after previous set)

/-- A name that changes is carried to the dependents. One that another workspace has is refused. -/
theorem leads_changeName {previous : String}
    (named : registry.findName workspace = some previous)
    (renamed : ∀ after old, registry.rename workspace name = .ok (after, old) → ∀ log,
      Leads Disk.alone (Update.name project previous name >>= fun _ =>
        confirmName workspace name manifest) ({ now.1 with registry := after, log := log }, now.2) post) :
    Leads Disk.alone (changeName project registry workspace previous name >>= settle)
      ({ now.1 with registry := registry }, now.2) post := by
  unfold changeName
  apply leads_assoc
  apply leads_log
  cases change : registry.rename workspace name with
  | error fault =>
      obtain ⟨holder, rfl, held⟩ := Registry.rename_eq_error change (by rw [named]; rfl)
      change Leads Disk.alone (settle (.error (.nameTaken name holder workspace))) _ post
      rw [refuses]
      exact leads_withoutName (taken ⟨holder, held⟩)
  | ok result =>
      obtain ⟨after, old⟩ := result
      apply leads_assoc
      apply leads_modifyRegistry
      apply leads_assoc
      change Leads Disk.alone (Update.name project previous name >>= fun _ => settle (.ok ())) _ post
      rw [confirms]
      exact renamed after old change _

end

/-- What a usable manifest leads to, case by case. -/
theorem leads_registerManifest {manifest : Manifest}
    (unwatched : isWatched now.1.registry workspace = false → post (.ok none) now)
    (unnamed : isWatched now.1.registry workspace = true →
      (∀ name, manifest.name = some name →
        ∃ holder, now.1.registry.findPath name = some holder ∧ holder ≠ workspace) →
      ∀ log, post (.ok none) ({ now.1 with
        registry := unregister (now.1.registry.addReadiness workspace .onlyManifest) workspace .onlyName
        log := log }, now.2))
    (named : isWatched now.1.registry workspace = true → ∀ name assigned previous,
      manifest.name = some name →
      (now.1.registry.findName workspace = none ∨ now.1.registry.findName workspace = some name) →
      (now.1.registry.addReadiness workspace .onlyManifest).setName workspace name
        = .ok (assigned, previous) →
      post (.ok (some manifest))
        ({ now.1 with registry := assigned.addReadiness workspace .onlyName }, now.2))
    (renamed : isWatched now.1.registry workspace = true → ∀ name previous renamed old,
      manifest.name = some name → now.1.registry.findName workspace = some previous →
      previous ≠ name →
      (now.1.registry.addReadiness workspace .onlyManifest).rename workspace name = .ok (renamed, old) →
      ∀ log, Leads Disk.alone (Update.name project previous name >>= fun _ =>
        confirmName workspace name manifest) ({ now.1 with registry := renamed, log := log }, now.2) post) :
    Leads Disk.alone (registerManifest project workspace manifest) now post := by
  unfold registerManifest
  apply leads_registry
  cases watched : isWatched now.1.registry workspace with
  | false => exact leads_pure (unwatched watched)
  | true =>
      apply leads_modifyRegistry
      cases given : manifest.name with
      | none =>
          apply leads_withoutName
          exact unnamed watched fun name named => by rw [given] at named; cases named
      | some name =>
          have taken (holder : ∃ holder, now.1.registry.findPath name = some holder ∧ holder ≠ workspace) :=
            unnamed watched fun asked same => Option.some.inj (given.symm.trans same) ▸ holder
          unfold registerName
          apply leads_assoc
          apply leads_registry
          dsimp only
          rw [show (now.1.registry.addReadiness workspace .onlyManifest).findName workspace
            = now.1.registry.findName workspace from rfl]
          cases holds : now.1.registry.findName workspace with
          | none =>
              dsimp only
              apply leads_assignName rfl (fun _ => rfl) taken
              exact fun after previous => named watched name after previous given (Or.inl holds)
          | some previous =>
              by_cases same : previous = name
              · simp only [if_pos same]
                apply leads_assignName rfl (fun _ => rfl) taken
                exact fun after old => named watched name after old given (Or.inr (same ▸ holds))
              · simp only [if_neg same]
                apply leads_changeName rfl (fun _ => rfl) taken
                · exact holds
                · exact fun after old => renamed watched name previous after old given holds same

/-- What the manifest of a workspace leads to: it may be refused, it may say nothing, or it is
usable. -/
theorem leads_loadManifest
    (refused : ∀ fault, manifestOf (now.2.read (Workspace.manifestPath workspace)) = .error fault →
      fault.isAccess = true → (∀ path, fault ≠ .read (.missing path)) → post (.error [fault]) now)
    (lost : ∀ fault, manifestOf (now.2.read (Workspace.manifestPath workspace)) = .error fault →
      ∀ log, post (.ok none)
        ({ now.1 with registry := unregister now.1.registry workspace .manifestAndName, log := log },
          now.2))
    (usable : ∀ manifest,
      manifestOf (now.2.read (Workspace.manifestPath workspace)) = .ok manifest →
      Leads Disk.alone (registerManifest project workspace manifest) now post) :
    Leads Disk.alone (loadManifest project workspace) now post := by
  unfold loadManifest
  apply leads_readManifest
  cases found : manifestOf (now.2.read (Workspace.manifestPath workspace)) with
  | ok manifest => exact usable manifest found
  | error fault =>
      split
      · rename_i same
        cases same
      · exact leads_withoutName (lost fault found)
      · rename_i given other same
        cases same
        split
        · rename_i access
          exact leads_throw (refused fault found access fun path missing =>
            other path missing)
        · exact leads_withoutName (lost fault found)

/-- A config that was there and is gone costs its workspace a bit of readiness. The root config is
brought in line where it was ready. -/
theorem leads_configGone {ended : Except Failure Unit → Engine × Disk → Prop}
    (reconfigures : ∀ log, Leads Disk.alone (configureRoot project)
      ({ now.1 with registry := now.1.registry.dropReadiness workspace .onlyConfig, log := log }, now.2)
      ended)
    (drops : now.1.registry.isReady workspace = false → ∀ log, ended (.ok ())
      ({ now.1 with registry := now.1.registry.dropReadiness workspace .onlyConfig, log := log }, now.2))
    (stays : ended (.ok ()) now) : Leads Disk.alone (configDeleted project workspace) now ended := by
  unfold configDeleted
  apply leads_registry
  apply leads_onlyIf
  · intro _
    apply leads_log
    apply leads_modifyRegistry
    exact leads_onlyIf (fun _ => reconfigures _) fun unready => drops unready _
  · exact fun _ => stays

/-- A config that was not there gives its workspace a bit of readiness. What that makes ready resumes:
the root config is brought in line and the artifact handled that is there. -/
theorem leads_configBack {options : SyncOptions} {ended : Except Failure Unit → Engine × Disk → Prop}
    (resumes : now.1.registry.hasReadiness workspace .onlyConfig = false →
      (now.1.registry.addReadiness workspace .onlyConfig).isReady workspace = true → ∀ log,
      Leads Disk.alone (do
          configureRoot project
          whenPresent (Workspace.artifactPath workspace)
            (artifactWritten project options (Workspace.artifactPath workspace)))
        ({ now.1 with registry := now.1.registry.addReadiness workspace .onlyConfig, log := log }, now.2)
        ended)
    (waits : now.1.registry.hasReadiness workspace .onlyConfig = false →
      (now.1.registry.addReadiness workspace .onlyConfig).isReady workspace = false → ∀ log,
      ended (.ok ())
        ({ now.1 with registry := now.1.registry.addReadiness workspace .onlyConfig, log := log }, now.2))
    (stays : now.1.registry.hasReadiness workspace .onlyConfig = true → ended (.ok ()) now) :
    Leads Disk.alone (configPresent project options workspace) now ended := by
  unfold configPresent
  apply leads_registry
  apply leads_onlyIf
  · intro missing
    have missing := (Bool.not_eq_true' _).mp missing
    apply leads_log
    apply leads_modifyRegistry
    apply leads_registry
    exact leads_onlyIf (fun ready => resumes missing ready _) fun unready => waits missing unready _
  · exact fun present => stays ((Bool.not_eq_false' _).mp present)

end Watch
end RefSync
