/-
What an event on the root manifest exchanges, and what it leaves alone. The workspaces that the globs
tell are the watched ones from then on. Those that left are forgotten, and of those that stay nothing
becomes different, neither in the registry nor in a document, however the others end.
-/

import RefSync.Proofs.Validation
import RefSync.Proofs.Watch.Permitted
import RefSync.Proofs.Watch.Runs
import RefSync.Proofs.Watch.Settling

namespace RefSync

open Routine Path Update

namespace Watch

attribute [local irreducible] Disk.write dispatch

variable {project : Project} {options : SyncOptions} {added gone found : List String}

/-! ### Bringing up workspaces is no matter of others -/

/-- What bringing up workspaces leaves as it was: all names, the readiness and the dependencies of
others, the watched manifests, the artifacts of others and the documents of others. -/
structure Tends (project : Project) (added : List String) (before after : Engine × Disk) : Prop where
  names : after.1.registry.names = before.1.registry.names
  readinessOf workspace : workspace ∉ added →
    after.1.registry.readinessOf workspace = before.1.registry.readinessOf workspace
  dependencies name : (∀ workspace ∈ added, before.1.registry.findName workspace ≠ some name) →
    after.1.registry.dependencies.get? name = before.1.registry.dependencies.get? name
  manifests : after.1.registry.manifests = before.1.registry.manifests
  artifacts path : path ∈ before.1.registry.artifacts → path ∈ after.1.registry.artifacts
  watches path : path ∈ after.1.registry.artifacts → path ∈ before.1.registry.artifacts
    ∨ ∃ workspace ∈ added, path = Workspace.artifactPath workspace
  writes : ∃ more, after.2.written = before.2.written ++ more ∧
    ∀ path ∈ more, path = configFile
      ∨ ∃ workspace ∈ added, DocumentPlace project workspace (project.resolved path)

def tending (project : Project) (added : List String) : Conduct Disk where
  allows := Tends project added
  refl before := ⟨rfl, fun _ _ => rfl, fun _ _ => rfl, rfl, fun _ => id, fun _ => Or.inl,
    [], (List.append_nil _).symm, nofun⟩
  trans {before between after} first second := by
    have findName (workspace : String) : between.1.registry.findName workspace
        = before.1.registry.findName workspace := by
      rw [Registry.findName, first.names]
      rfl
    obtain ⟨some, wroteSome, within⟩ := first.writes
    obtain ⟨more, wroteMore, moreWithin⟩ := second.writes
    refine ⟨second.names.trans first.names, fun workspace other => ?_, fun name foreign => ?_,
      second.manifests.trans first.manifests, fun path member => ?_, fun path member => ?_,
      some ++ more, ?_, fun path member => ?_⟩
    · exact (second.readinessOf workspace other).trans (first.readinessOf workspace other)
    · refine (second.dependencies name fun workspace member => ?_).trans (first.dependencies name foreign)
      exact findName workspace ▸ foreign workspace member
    · exact second.artifacts path (first.artifacts path member)
    · exact (second.watches path member).elim (first.watches path) Or.inr
    · rw [wroteMore, wroteSome, List.append_assoc]
    · exact (List.mem_append.mp member).elim (within path) (moreWithin path)

theorem tends_same {before : Engine × Disk} {engine : Engine}
    (same : engine.registry = before.1.registry) : Tends project added before (engine, before.2) := by
  have refl := (tending project added).refl before
  refine ⟨?_, fun _ _ => ?_, fun _ _ => ?_, ?_, fun _ member => ?_, fun _ member => ?_, refl.writes⟩
  · exact congrArg Registry.names same
  · exact congrArg (Registry.readinessOf · _) same
  · exact congrArg (fun registry : Registry => registry.dependencies.get? _) same
  · exact congrArg Registry.manifests same
  · exact same ▸ member
  · exact Or.inl (same ▸ member)

theorem tends_write {now : Engine × Disk} {path : String} (document : Document)
    (own : path = configFile
      ∨ ∃ workspace ∈ added, DocumentPlace project workspace (project.resolved path)) :
    Tends project added now (now.1, (now.2.write path document).2) := by
  have refl := (tending project added).refl now
  refine { refl with writes := ⟨[path], ?_, fun other member => ?_⟩ }
  · rw [(Disk.puts_write now.2 path document).2]
  · rwa [List.mem_singleton.mp member]

theorem permits_tending :
    Permits project (fun _ => True) (tending project added) (fun _ => True) (fun _ => True) where
  endures _ _ _ := id
  notes _ _ _ same _ _ := tends_same same
  faults _ _ _ _ := trivial

theorem permitsRoot_tending :
    PermitsConfig (fun _ => True) (tending project added) (fun _ => True) configFile :=
  ⟨trivial, fun _ _ updated _ _ _ _ _ => tends_write updated (Or.inl rfl)⟩

section

variable {workspace : String} (member : workspace ∈ added)

include member

theorem permitsConfig_tending : PermitsConfig (fun _ => True) (tending project added) (fun _ => True)
    (Workspace.configPath workspace) :=
  ⟨trivial, fun _ _ updated _ _ _ _ _ =>
    tends_write updated (Or.inr ⟨workspace, member, Or.inr rfl⟩)⟩

theorem permitsArtifact_tending :
    PermitsArtifact (fun _ => True) (tending project added) (fun _ => True) (fun _ => True) options
      workspace where
  config := permitsConfig_tending member
  manifest _ _ _ _ _ _ _ _ _ _ := ⟨trivial, fun _ _ updated _ _ _ _ _ =>
    tends_write updated (Or.inr ⟨workspace, member, Or.inl rfl⟩)⟩
  learns state name discovered _ named _ := by
    refine { (tending project added).refl state with dependencies := fun other foreign => ?_ }
    refine (Table.get?_set ..).trans (if_neg ?_)
    rintro rfl
    exact foreign workspace member named
  marks state _ _ _ _ := { (tending project added).refl state with }
  pauses state _ _ := { (tending project added).refl state with }
  endless _ _ _ := trivial

theorem tends_addReadiness (state : Engine × Disk) (more : Readiness) :
    Tends project added state
      ({ state.1 with registry := state.1.registry.addReadiness workspace more }, state.2) := by
  refine { (tending project added).refl state with readinessOf := fun other absent => ?_ }
  refine (Registry.readinessOf_addReadiness ..).trans (if_neg ?_)
  rintro rfl
  exact absent member

theorem tends_watchArtifact (state : Engine × Disk) :
    Tends project added state ({ state.1 with
      registry := state.1.registry.watchArtifact (Workspace.artifactPath workspace) }, state.2) := by
  refine { (tending project added).refl state with
    artifacts := fun path before => TextSet.mem_insert.mpr (Or.inr before)
    watches := fun path watched => ?_ }
  exact (TextSet.mem_insert.mp watched).symm.imp_right fun same => ⟨workspace, member, same⟩

end

theorem abides_tend {generation : Nat} (stem : ∀ workspace ∈ added, IsStem workspace) :
    Abides Disk.alone (tending project added) (fun _ => True) (fun _ => True)
      (bringUp project options added generation) fun _ _ => True := by
  apply abides_bringUp permits_tending (fun _ _ => trivial) (fun _ _ => trivial) permitsRoot_tending
  · exact fun workspace member => permitsConfig_tending member
  · intro workspace member
    rw [Workspace.ofArtifact_artifactPath (stem workspace member)]
    exact permitsArtifact_tending member
  · exact fun workspace member state _ _ => tends_addReadiness member state .onlyConfig
  · exact fun workspace member state _ _ => tends_watchArtifact member state

/-! ### What is exchanged -/

/-- Whether a registry knows nothing of a workspace. -/
structure Unknown (registry : Registry) (workspace : String) : Prop where
  name : registry.findName workspace = none
  readiness : registry.readinessOf workspace = .none
  manifest : Workspace.manifestPath workspace ∉ registry.manifests
  artifact : Workspace.artifactPath workspace ∉ registry.artifacts
  missing : Workspace.artifactPath workspace ∉ registry.missingArtifacts

/-- Whether a workspace has the same name, readiness, dependencies and watched artifact as before. -/
structure Untouched (workspace : String) (before after : Registry) : Prop where
  name : after.findName workspace = before.findName workspace
  readiness : after.readinessOf workspace = before.readinessOf workspace
  dependencies name : before.findName workspace = some name →
    after.dependencies.get? name = before.dependencies.get? name
  artifact : Workspace.artifactPath workspace ∈ after.artifacts
    ↔ Workspace.artifactPath workspace ∈ before.artifacts

/-- How an engine goes over from the watched workspaces to others. -/
structure Exchanges (found : List String) (before after : Engine × Disk) : Prop where
  watched workspace : workspace ∈ after.1.registry.watched ↔ workspace ∈ found
  leaves workspace : workspace ∈ before.1.registry.watched → workspace ∉ found →
    Unknown after.1.registry workspace
  unlearns workspace name : workspace ∈ before.1.registry.watched → workspace ∉ found →
    before.1.registry.findName workspace = some name →
    after.1.registry.dependencies.get? name = none
      ∨ ∃ other ∈ found, other ∉ before.1.registry.watched
        ∧ after.1.registry.findName other = some name
  stays workspace : workspace ∈ before.1.registry.watched → workspace ∈ found →
    Untouched workspace before.1.registry after.1.registry
  writes : ∃ more, after.2.written = before.2.written ++ more ∧
    ∀ workspace ∈ before.1.registry.watched, workspace ≠ "." → ∀ path ∈ more,
      ¬DocumentPlace before.2.project workspace (before.2.project.resolved path)

section

variable {now between later : Engine × Disk}

theorem exchanges_still (same : ∀ workspace, workspace ∈ now.1.registry.watched ↔ workspace ∈ found) :
    Exchanges found now now where
  watched := same
  leaves workspace watched left := absurd ((same workspace).mp watched) left
  unlearns workspace _ watched left := absurd ((same workspace).mp watched) left
  stays _ _ _ := ⟨rfl, rfl, fun _ _ => rfl, Iff.rfl⟩
  writes := ⟨[], (List.append_nil _).symm, nofun⟩

/-- Messages make no difference. -/
theorem Exchanges.logged (exchanges : Exchanges found now between)
    (registry : later.1.registry = between.1.registry) (files : later.2 = between.2) :
    Exchanges found now later := by
  obtain ⟨watched, leaves, unlearns, stays, writes⟩ := exchanges
  rw [← registry] at watched leaves unlearns stays
  rw [← files] at writes
  exact ⟨watched, leaves, unlearns, stays, writes⟩

section

variable {log : List LogRecord} (joins : Joins added (exchanging now gone log) between)
  (tends : Tends project added between later)

include joins tends

theorem exchanged_names {workspace : String} (absent : workspace ∉ added) :
    later.1.registry.findName workspace
      = if workspace ∈ gone then none else now.1.registry.findName workspace := by
  rw [Registry.findName, tends.names]
  exact (joins.names workspace absent).trans
    ((dropped_removeWorkspaces now.1.registry gone).findName workspace)

theorem exchanged_readiness {workspace : String} (absent : workspace ∉ added) :
    later.1.registry.readinessOf workspace
      = if workspace ∈ gone then .none else now.1.registry.readinessOf workspace :=
  (tends.readinessOf workspace absent).trans ((joins.readinessOf workspace absent).trans
    ((dropped_removeWorkspaces now.1.registry gone).readinessOf workspace))

/-- The dependencies of a name are as before if nobody who was added or has left carries it. -/
theorem exchanged_dependencies {name : String}
    (foreign : ∀ workspace ∈ added, later.1.registry.findName workspace ≠ some name)
    (kept : ∀ workspace ∈ gone, now.1.registry.findName workspace ≠ some name) :
    later.1.registry.dependencies.get? name = now.1.registry.dependencies.get? name := by
  have others (workspace : String) (member : workspace ∈ added) :
      between.1.registry.findName workspace ≠ some name := by
    have elsewhere := foreign workspace member
    rwa [Registry.findName, tends.names] at elsewhere
  refine (tends.dependencies name others).trans ((joins.dependencies name others).trans ?_)
  exact (dropped_removeWorkspaces now.1.registry gone).dependencies name kept

variable (sound : now.1.registry.Sound project) (laterSound : later.1.registry.Sound project)
  (exchange : Exchange now found added gone)
  (relative : ∀ workspace ∈ added, project.IsRelative workspace)

include sound laterSound exchange relative

theorem exchanged_watched (workspace : String) :
    workspace ∈ later.1.registry.watched ↔ workspace ∈ found := by
  have dropped := dropped_removeWorkspaces now.1.registry gone
  have manifests (path : String) : path ∈ later.1.registry.manifests ↔
      (path ∈ now.1.registry.manifests ∧ ∀ workspace ∈ gone, path ≠ Workspace.manifestPath workspace)
        ∨ ∃ workspace ∈ added, path = Workspace.manifestPath workspace := by
    rw [tends.manifests, joins.manifests]
    exact or_congr_left (dropped.manifests path)
  rw [mem_watched laterSound, manifests]
  constructor
  · rintro ⟨isRelative, ⟨watched, kept⟩ | ⟨other, inAdded, same⟩⟩
    · by_contra absent
      refine kept workspace ((exchange.goes workspace).mpr ⟨?_, absent⟩) rfl
      exact (mem_watched sound).mpr ⟨isRelative, watched⟩
    · obtain rfl := Workspace.manifestPath_injective isRelative.spelled.stem
        (relative other inAdded).spelled.stem same
      exact ((exchange.comes workspace).mp inAdded).1
  · intro told
    by_cases before : workspace ∈ now.1.registry.watched
    · obtain ⟨isRelative, watched⟩ := (mem_watched sound).mp before
      refine ⟨isRelative, Or.inl ⟨watched, fun other left same => ?_⟩⟩
      obtain ⟨otherWatched, absent⟩ := (exchange.goes other).mp left
      have otherStem := ((mem_watched sound).mp otherWatched).1.spelled.stem
      exact absent (Workspace.manifestPath_injective isRelative.spelled.stem otherStem same ▸ told)
    · have inAdded := (exchange.comes workspace).mpr ⟨told, before⟩
      exact ⟨relative workspace inAdded, Or.inr ⟨workspace, inAdded, rfl⟩⟩

theorem exchanged_leaves {workspace : String} (before : workspace ∈ now.1.registry.watched)
    (left : workspace ∉ found) : Unknown later.1.registry workspace := by
  have inGone : workspace ∈ gone := (exchange.goes workspace).mpr ⟨before, left⟩
  have absent : workspace ∉ added := fun member => left ((exchange.comes workspace).mp member).1
  have isRelative := ((mem_watched sound).mp before).1
  have unwatched : Workspace.manifestPath workspace ∉ later.1.registry.manifests := fun watched =>
    left ((exchanged_watched joins tends sound laterSound exchange relative workspace).mp
      ((mem_watched laterSound).mpr ⟨isRelative, watched⟩))
  have unbuilt : Workspace.artifactPath workspace ∉ later.1.registry.artifacts := fun watched =>
    unwatched (laterSound.watches_of_artifact isRelative.spelled.stem watched).2
  refine ⟨?_, ?_, unwatched, unbuilt, fun missing => unbuilt (laterSound.missing _ missing)⟩
  · rw [exchanged_names joins tends absent, if_pos inGone]
  · rw [exchanged_readiness joins tends absent, if_pos inGone]

/-- What is known under the name of a workspace that left is known of one that was added. -/
theorem exchanged_unlearns {workspace name : String} (left : workspace ∉ found)
    (named : now.1.registry.findName workspace = some name) :
    later.1.registry.dependencies.get? name = none
      ∨ ∃ other ∈ found, other ∉ now.1.registry.watched
        ∧ later.1.registry.findName other = some name := by
  cases known : later.1.registry.dependencies.get? name with
  | none => exact Or.inl rfl
  | some stored =>
      obtain ⟨holder, held⟩ := Option.isSome_iff_exists.mp
        (laterSound.dependenciesNamed name (by rw [known]; rfl))
      have owns := (laterSound.inverse holder name).mpr held
      have watches := laterSound.watches_of_named owns
      have told := (exchanged_watched joins tends sound laterSound exchange relative holder).mp
        ((mem_watched laterSound).mpr ⟨laterSound.relative watches, watches.2⟩)
      refine Or.inr ⟨holder, told, fun watched => left ?_, owns⟩
      -- One that stays has had its name all along, and so it is not that of another one.
      have absent : holder ∉ added := fun member => ((exchange.comes holder).mp member).2 watched
      have stays : holder ∉ gone := fun member => ((exchange.goes holder).mp member).2 told
      rw [exchanged_names joins tends absent, if_neg stays] at owns
      rwa [sound.one_workspace named owns]

theorem exchanged_stays {workspace : String} (before : workspace ∈ now.1.registry.watched)
    (told : workspace ∈ found) : Untouched workspace now.1.registry later.1.registry := by
  have dropped := dropped_removeWorkspaces now.1.registry gone
  have absent : workspace ∉ added := fun member => ((exchange.comes workspace).mp member).2 before
  have stays : workspace ∉ gone := fun member => ((exchange.goes workspace).mp member).2 told
  have stem := ((mem_watched sound).mp before).1.spelled.stem
  have names : later.1.registry.findName workspace = now.1.registry.findName workspace := by
    rw [exchanged_names joins tends absent, if_neg stays]
  refine ⟨names, ?_, fun name named => ?_, ?_⟩
  · rw [exchanged_readiness joins tends absent, if_neg stays]
  · apply exchanged_dependencies joins tends
    · intro other member owns
      exact absent (laterSound.one_workspace (names.trans named) owns ▸ member)
    · intro other member owned
      exact stays (sound.one_workspace named owned ▸ member)
  · have between : Workspace.artifactPath workspace ∈ between.1.registry.artifacts
        ↔ Workspace.artifactPath workspace ∈ now.1.registry.artifacts := by
      rw [joins.artifacts]
      refine (dropped.artifacts _).trans (and_iff_left fun other left same => ?_)
      have otherStem := ((mem_watched sound).mp ((exchange.goes other).mp left).1).1.spelled.stem
      exact stays (Workspace.artifactPath_injective stem otherStem same ▸ left)
    refine ⟨fun watched => between.mp ?_, fun watched => tends.artifacts _ (between.mpr watched)⟩
    refine (tends.watches _ watched).resolve_right ?_
    rintro ⟨other, member, same⟩
    have otherStem := (relative other member).spelled.stem
    exact absent (Workspace.artifactPath_injective stem otherStem same ▸ member)

theorem exchanges_tended (same : now.2.project = project) : Exchanges found now later where
  watched := exchanged_watched joins tends sound laterSound exchange relative
  leaves _ := exchanged_leaves joins tends sound laterSound exchange relative
  unlearns _ _ _ := exchanged_unlearns joins tends sound laterSound exchange relative
  stays _ := exchanged_stays joins tends sound laterSound exchange relative
  writes := by
    obtain ⟨more, wrote, within⟩ := tends.writes
    rw [joins.files] at wrote
    refine ⟨more, wrote, fun workspace before below path member mine => ?_⟩
    rw [same] at mine
    have isRelative := ((mem_watched sound).mp before).1
    rcases within path member with rfl | ⟨other, inAdded, theirs⟩
    · exact rootConfig_apart isRelative below mine
    · obtain ⟨_, fresh⟩ := (exchange.comes other).mp inAdded
      have differ : other ≠ workspace := fun own => fresh (own ▸ before)
      exact documentPlace_apart isRelative (relative other inAdded) differ mine theirs

end

end

/-! ### The event -/

section

variable {now : Engine × Disk}

/-- What an event on the root manifest has exchanged: nothing, if the manifest tells nothing. -/
def Replaces (now later : Engine × Disk) : Prop :=
  ((∀ found, ¬now.2.Tells found) → later.1.registry = now.1.registry ∧ later.2 = now.2)
    ∧ ∀ found, now.2.Tells found → Exchanges found now later

theorem leads_rootUpdated_replaces (orderly : now.1.Orderly project False [])
    (same : now.2.project = project) (active : now.1.active = true) :
    Leads Disk.alone (rootUpdated project options) now fun _ later => Replaces now later := by
  apply leads_exchange orderly same active
  · exact fun fault _ none => ⟨fun _ => ⟨rfl, rfl⟩, fun found tells => absurd tells (none found)⟩
  · intro found tells same
    refine ⟨fun none => absurd tells (none found), fun other tellsOther => ?_⟩
    exact exchanges_still (tells.unique tellsOther ▸ same)
  · intro found added gone log exchange addition
    have relative := addition.relative
    have stem (workspace : String) (member : workspace ∈ added) : IsStem workspace :=
      (relative workspace member).spelled.stem
    have replaces {between later : Engine × Disk} (joins : Joins added (exchanging now gone log) between)
        (tends : Tends project added between later) (sound : later.1.registry.Sound project) :
        Replaces now later := by
      refine ⟨fun none => absurd exchange.tells (none found), fun other tells => ?_⟩
      rw [exchange.tells.unique tells]
      exact exchanges_tended joins tends orderly.sound sound exchange relative same
    apply leads_addWorkspaces addition nofun
    · intro between come
      have remains : Leads Disk.alone (bringUp project options added now.1.generation) between
          fun result later => orderlyEnd project False (fun _ _ => True) result later later :=
        (steadily_bringUp Disk.quiet_alone options stem now.1.generation).alone between come.orderly
          come.settled
      apply (remains.both ((abides_tend stem).leads trivial)).weaken
      rintro result later ⟨ended, tends, _⟩
      exact replaces come.toJoins tends ended.1.sound
    · intro _ failure later ended joins _
      exact replaces joins ((tending project added).refl later) ended.sound

theorem Visited.orderly {state : Engine × Disk} (visited : Visited project options state) :
    state.1.Orderly project False [] ∧ state.2.project = project := by
  induction visited with
  | begun disk same =>
      exact ⟨⟨Registry.sound_empty, fun _ _ _ => Registry.settled_of_unnamed rfl, fun _ => rfl⟩, same⟩
  | started disk same finishes =>
      have leaves : LeavesOrderly project False (start project options) ({}, disk) fun _ _ => True :=
        orderly_start same nofun
      exact ⟨(leaves.finishes finishes).1, sameProject_of_finishes finishes same⟩
  | edited _ _ ih => exact ih
  | @dispatched before _ event result after finishes ih =>
      have leaves : LeavesOrderly project False (dispatch project options event) before
          fun _ _ => True := leavesOrderly_dispatch event ih.1 ih.2 nofun
      exact ⟨(leaves.finishes finishes).1, sameProject_of_finishes finishes ih.2⟩

end

/-- Whatever happened before, an event by which the root manifest is there, or is another one, makes
an active engine watch the workspaces that the globs match, and no others. Those that left are
forgotten; of those that stay nothing becomes different, and no document of them is written. Where the
manifest tells nothing, nothing changes. -/
theorem root_change_replaces_difference (project : Project) (options : SyncOptions)
    {before after : Engine × Disk} {result : Except Failure Unit}
    (visited : Visited project options before) (active : before.1.active = true) {event : Event}
    (root : project.relative event.path = manifestFile) (present : event.change ≠ .delete)
    (finishes : Finishes Disk.alone (dispatch project options event) before result after) :
    ((∀ found, ¬before.2.Tells found) →
        after.1.registry = before.1.registry ∧ after.2 = before.2)
      ∧ ∀ found, before.2.Tells found → Exchanges found before after := by
  obtain ⟨orderly, same⟩ := visited.orderly
  have classified : classify project before.1.registry event.path = some .rootManifest := by
    rw [classify, root]
    rfl
  have handles : Leads Disk.alone (handle project options .rootManifest event.change
      (project.relative event.path)) before fun _ later => Replaces before later := by
    have updates : Leads Disk.alone (do
        if (← engine).active then rootUpdated project options else rootCreated project options) before
        fun _ later => Replaces before later := by
      apply leads_engine
      rw [active]
      exact leads_rootUpdated_replaces orderly same active
    cases change : event.change with
    | create => exact updates
    | update => exact updates
    | delete => exact absurd change present
  rcases (leads_dispatch classified handles).finishes finishes with
    ⟨_, replaces⟩ | ⟨failure, between, replaces, settled⟩
  · exact replaces
  · have still : after.1.registry = between.1.registry ∧ after.2 = between.2 := by
      cases settled <;> exact ⟨rfl, rfl⟩
    refine ⟨fun none => ?_, fun found tells => (replaces.2 found tells).logged still.1 still.2⟩
    rw [still.1, still.2]
    exact replaces.1 none

/-- A root manifest, two workspaces and a third one, with the name of the first. -/
def successorFiles (globs : String) : FileTree where
  entries :=
    [(["p"], .directory),
      (["p", "package.json"], .file (.text ("\x7b\"workspaces\":" ++ globs ++ "\x7d").toList)),
      (["p", "a"], .directory), (["p", "a", "package.json"], .file (.text "\x7b\"name\":\"x\"\x7d".toList)),
      (["p", "b"], .directory), (["p", "b", "package.json"], .file (.text "\x7b\"name\":\"b\"\x7d".toList)),
      (["p", "c"], .directory), (["p", "c", "package.json"], .file (.text "\x7b\"name\":\"x\"\x7d".toList))]

/-- One workspace takes the place and the name of another one, and a third one stays. -/
theorem successor_replaces_workspace :
    ∃ before after, Visited ⟨"/p"⟩ {} before ∧ before.1.registry.watched = ["a", "b"]
      ∧ before.1.registry.findName "a" = some "x" ∧ before.2.Tells ["b", "c"]
      ∧ Finishes Disk.alone (dispatch ⟨"/p"⟩ {} { change := .update, path := "/p/package.json" }) before
        (.ok ()) after
      ∧ after.1.registry.findName "c" = some "x" ∧ Exchanges ["b", "c"] before after := by
  let disk : Disk := { project := ⟨"/p"⟩, files := successorFiles "[\"a\",\"b\"]" }
  let event : Event := { change := .update, path := "/p/package.json" }
  obtain ⟨begun, isBegun⟩ : ∃ begun, (start ⟨"/p"⟩ {}).run Disk.alone ({}, disk) = begun := ⟨_, rfl⟩
  let before : Engine × Disk :=
    (begun.2.1, { begun.2.2 with files := successorFiles "[\"b\",\"c\"]" })
  obtain ⟨done, isDone⟩ : ∃ done, (dispatch ⟨"/p"⟩ {} event).run Disk.alone before = done := ⟨_, rfl⟩
  obtain ⟨starts, ends, active, root, watched, named, successor, globs⟩ :
      begun.1 = .ok () ∧ done.1 = .ok () ∧ before.1.active = true
        ∧ (Project.mk "/p").relative event.path = manifestFile
        ∧ before.1.registry.watched = ["a", "b"] ∧ before.1.registry.findName "a" = some "x"
        ∧ done.2.1.registry.findName "c" = some "x"
        ∧ ((manifestOf (before.2.read manifestFile)).toOption.any fun manifest =>
          (before.2.discover (manifest.workspaces.getD [])).toOption.any (· == ["b", "c"])) = true := by
    subst isDone isBegun
    decide +kernel
  obtain ⟨manifest, read, answers⟩ := ok_of_any globs
  obtain ⟨found, answer, same⟩ := ok_of_any answers
  rw [beq_iff_eq] at same
  have tells : before.2.Tells ["b", "c"] := ⟨manifest, read, same ▸ answer⟩
  have first := run_finishes Disk.alone (start ⟨"/p"⟩ {}) ({}, disk)
  rw [isBegun, starts] at first
  have second := run_finishes Disk.alone (dispatch ⟨"/p"⟩ {} event) before
  rw [isDone, ends] at second
  have visited : Visited ⟨"/p"⟩ {} before := .edited (.started disk rfl first) _
  exact ⟨before, done.2, visited, watched, named, tells, second, successor,
    (root_change_replaces_difference ⟨"/p"⟩ {} visited active root nofun second).2 _ tells⟩

end Watch
end RefSync
