/-
Names follow what is on the disk. The engine has a name for a workspace only from the manifest that it
looked at last, and it has the one that this gives unless another workspace had it then.
-/

import RefSync.Proofs.Watch.Heeding

namespace RefSync

open Routine Path Update

namespace Watch

attribute [local irreducible] Disk.write dispatch

variable {project : Project} {options : SyncOptions} {now later : Engine × Disk}
  {workspace path : String} {told : String → Prop}

/-! ### Runs -/

/-- Whether another workspace has the name that the manifest of a workspace gives it. -/
def Refused (workspace : String) (state : Engine × Disk) : Prop :=
  ∃ name holder, state.2.Carries workspace name ∧ holder ≠ workspace
    ∧ state.1.registry.findName holder = some name

/-- The states between two events in a project whose directory is there. Some workspaces have manifests
that give other names than when the engine looked at them last, and some were refused their names then.
An event that fails may end before the engine has looked at what it concerns. -/
inductive Tracked (project : Project) (options : SyncOptions) :
    (String → Prop) → (String → Prop) → Engine × Disk → Prop where
  | started (disk : Disk) (same : disk.project = project) (grounded : disk.Grounded)
      {result : Except Failure Unit} {after : Engine × Disk}
      (finishes : Finishes Disk.alone (start project options) ({}, disk) result after) :
      Tracked project options (fun _ => result ≠ .ok ()) (Refused · after) after
  | edited {unseen refused : String → Prop} {before : Engine × Disk}
      (tracked : Tracked project options unseen refused before) (files : FileTree)
      (grounded : Disk.Grounded { before.2 with files := files }) :
      Tracked project options
        (fun workspace => unseen workspace ∨ ¬∀ name,
          Disk.Carries { before.2 with files := files } workspace name
            ↔ before.2.Carries workspace name)
        refused (before.1, { before.2 with files := files })
  | handled {unseen refused : String → Prop} {before : Engine × Disk}
      (tracked : Tracked project options unseen refused before) (event : Event) {after : Engine × Disk}
      (handled : Handled project options event before after) :
      Tracked project options
        (fun workspace =>
          if Concerns before.1.registry (project.relative event.path) workspace
          then event.change = .delete ∧ ∃ name, after.2.Carries workspace name
          else unseen workspace)
        (fun workspace =>
          if Concerns before.1.registry (project.relative event.path) workspace
          then Refused workspace after
          else refused workspace) after
  | failed {unseen refused : String → Prop} {before : Engine × Disk}
      (tracked : Tracked project options unseen refused before) (event : Event)
      {result : Except Failure Unit} {after : Engine × Disk}
      (finishes : Finishes Disk.alone (dispatch project options event) before result after) :
      Tracked project options
        (fun workspace => unseen workspace
          ∨ Concerns before.1.registry (project.relative event.path) workspace)
        refused after

/-- What is known of a workspace whose manifest is the one that the engine looked at last. -/
structure Known (refused : Prop) (workspace : String) (state : Engine × Disk) : Prop where
  carried name : state.1.registry.findName workspace = some name → state.2.Carries workspace name
  named name : state.2.Carries workspace name →
    state.1.registry.findName workspace = some name ∨ refused

theorem Informed.known (informed : Informed workspace now) : Known (Refused workspace now) workspace now where
  carried := informed.carried
  named name carries := by
    obtain ⟨holder, held⟩ := informed.heard name carries
    by_cases own : holder = workspace
    · exact Or.inl (own ▸ held)
    · exact Or.inr ⟨name, holder, carries, own, held⟩

/-- What is known of a workspace stays so while the engine does not look at its manifest. -/
theorem Known.retained {refused : Prop} (known : Known refused workspace now)
    (retains : Retains told now later) (relative : now.2.project.IsRelative workspace)
    (grounded : now.2.Grounded) (watched : Workspace.manifestPath workspace ∈ later.1.registry.manifests) (others : ¬told workspace) :
    Known refused workspace later := by
  have still := retains.names workspace watched others
  refine ⟨fun name named => ?_, fun name carries => ?_⟩
  · rw [still] at named
    exact retains.disk.keeps workspace name relative (known.carried name named)
  · rw [still]
    cases named : now.1.registry.findName workspace with
    | some own =>
        have keeps := retains.disk.keeps workspace own relative (known.carried own named)
        rw [keeps.unique carries]
        exact Or.inl rfl
    | none =>
        have before := retains.disk.gains workspace name relative grounded (fun touched => ?_) carries
        · rw [← named]
          exact known.named name before
        · rcases touched with does | has
          · exact others does
          · rw [named] at has
            cases has

/-- What holds between two events: the engine knows the names of all watched workspaces whose manifests
are as it looked at them last. -/
structure Keeps (project : Project) (unseen refused : String → Prop) (state : Engine × Disk) : Prop where
  orderly : state.1.Orderly project False []
  same : state.2.project = project
  grounded : state.2.Grounded
  known workspace : project.IsRelative workspace →
    Workspace.manifestPath workspace ∈ state.1.registry.manifests → ¬unseen workspace →
    Known (refused workspace) workspace state

theorem Tracked.keeps {unseen refused : String → Prop} {state : Engine × Disk}
    (tracked : Tracked project options unseen refused state) : Keeps project unseen refused state := by
  induction tracked with
  | @started disk same grounded result after finishes =>
      have leaves : LeavesOrderly project False (start project options) ({}, disk) fun _ _ => True :=
        orderly_start same nofun
      have heeds : Heeds (Concerns .empty manifestFile) .create ({}, disk) result after :=
        (leads_start_heeds same grounded).finishes finishes
      refine ⟨(leaves.finishes finishes).1, sameProject_of_finishes finishes same,
        heeds.disk.grounded grounded, fun workspace relative watched seen => ?_⟩
      exact (heeds.informed workspace (not_not.mp seen) (same ▸ relative) watched
        (Or.inl List.not_mem_nil) nofun).known
  | edited _ files grounded ih =>
      refine ⟨ih.orderly, ih.same, grounded, fun workspace relative watched seen => ?_⟩
      rw [not_or, not_not] at seen
      obtain ⟨carried, named⟩ := ih.known workspace relative watched seen.1
      exact ⟨fun name holds => (seen.2 name).mpr (carried name holds),
        fun name carries => named name ((seen.2 name).mp carries)⟩
  | @handled unseen refused before _ event after handled ih =>
      have finishes := handled.dispatched
      have leaves : LeavesOrderly project False (dispatch project options event) before
          fun _ _ => True := leavesOrderly_dispatch event ih.orderly ih.same nofun
      have retains := (leads_dispatch_retains ih.orderly ih.same ih.grounded).finishes finishes
      refine ⟨(leaves.finishes finishes).1, sameProject_of_finishes finishes ih.same,
        retains.disk.grounded ih.grounded, fun workspace relative watched seen => ?_⟩
      by_cases concerns : Concerns before.1.registry (project.relative event.path) workspace
      · rw [if_pos concerns] at seen ⊢
        cases handled with
        | ignored unclassified =>
            rcases concerns with unwatched | own
            · exact absurd watched unwatched
            · have classified := classified_manifest ih.orderly.sound (own ▸ watched)
              cases unclassified.symm.trans classified
        | completed classified finishes =>
            have heeds := (leads_handle_heeds ih.orderly ih.same ih.grounded
              (project.relative_spelled event.path) classified).finishes finishes
            exact (heeds.informed workspace rfl (ih.same ▸ relative) watched concerns
              fun gone name carries => seen ⟨gone, name, carries⟩).known
      · rw [if_neg concerns] at seen ⊢
        have before : Workspace.manifestPath workspace ∈ before.1.registry.manifests :=
          not_not.mp fun unwatched => concerns (Or.inl unwatched)
        exact (ih.known workspace relative before seen).retained retains (ih.same ▸ relative) ih.grounded
          watched concerns
  | @failed unseen refused before _ event result after finishes ih =>
      have leaves : LeavesOrderly project False (dispatch project options event) before
          fun _ _ => True := leavesOrderly_dispatch event ih.orderly ih.same nofun
      have retains := (leads_dispatch_retains ih.orderly ih.same ih.grounded).finishes finishes
      refine ⟨(leaves.finishes finishes).1, sameProject_of_finishes finishes ih.same,
        retains.disk.grounded ih.grounded, fun workspace relative watched seen => ?_⟩
      rw [not_or] at seen
      have before : Workspace.manifestPath workspace ∈ before.1.registry.manifests :=
        not_not.mp fun unwatched => seen.2 (Or.inl unwatched)
      exact (ih.known workspace relative before seen.1).retained retains (ih.same ▸ relative) ih.grounded
        watched seen.2

/-- A watched workspace has the name that its manifest gives it, unless the manifest is another one than
the engine looked at last, or another workspace had the name by then. -/
theorem names_follow_manifests {unseen refused : String → Prop} {state : Engine × Disk}
    (tracked : Tracked project options unseen refused state) {workspace : String}
    (watched : workspace ∈ state.1.registry.watched) (seen : ¬unseen workspace)
    (free : ¬refused workspace) (name : String) :
    (state.1.registry.findName workspace = some name ↔ state.2.Carries workspace name)
      ∧ (state.2.Carries workspace name → state.1.registry.findPath name = some workspace
        ∧ (state.1.registry.readinessOf workspace).name = true) := by
  have keeps := tracked.keeps
  have sound := keeps.orderly.sound
  obtain ⟨relative, member⟩ := (mem_watched sound).mp watched
  have known := keeps.known workspace relative member seen
  have named (carries : state.2.Carries workspace name) :
      state.1.registry.findName workspace = some name :=
    (known.named name carries).resolve_right free
  refine ⟨⟨known.carried name, named⟩, fun carries => ⟨?_, ?_⟩⟩
  · exact (sound.inverse workspace name).mp (named carries)
  · rw [sound.nameBit, named carries]
    rfl

/-- A project with two workspaces that have names. -/
def namedFiles (first second : String) : FileTree where
  entries := [(["p"], .directory),
    (["p", "package.json"], .file (.text "\x7b\"workspaces\":[\"a\",\"b\"]\x7d".toList)),
    (["p", "a"], .directory), (["p", "b"], .directory),
    (["p", "a", "package.json"], .file (.text ("\x7b\"name\":\"" ++ first ++ "\"\x7d").toList)),
    (["p", "b", "package.json"], .file (.text ("\x7b\"name\":\"" ++ second ++ "\"\x7d").toList))]

theorem grounded_namedFiles (first second : String) {disk : Disk} (same : disk.project = ⟨"/p"⟩) :
    Disk.Grounded { disk with files := namedFiles first second } := by
  refine ⟨FileTree.isGrounded_of_entries fun entry member => ?_, ["p"], ?_⟩
  · simp only [namedFiles, List.mem_cons, List.not_mem_nil, or_false] at member
    rcases member with rfl | rfl | rfl | rfl | rfl | rfl <;> rfl
  · have spelled : parts "/p" = ["p"] := by decide +kernel
    rw [show disk.project = ⟨"/p"⟩ from same, spelled]
    rfl

/-- The engine hears of a manifest, and handles that without a fault. -/
theorem Handled.updated (before : Engine × Disk) (sound : before.1.registry.Sound project)
    {document : String} (spelled : project.relative path = document)
    (watched : document ∈ before.1.registry.manifests) {done : Except Failure Unit × Engine × Disk}
    (run : (handle project options .workspaceManifest .update document).run Disk.alone before = done)
    (ends : done.1 = .ok ()) : Handled project options { change := .update, path } before done.2 := by
  subst spelled
  let event : Event := { change := .update, path }
  have finishes := run_finishes Disk.alone
    (handle project options .workspaceManifest .update (project.relative path)) before
  rw [run, ends] at finishes
  have classified : classify project before.1.registry event.path = some .workspaceManifest :=
    classified_manifest sound watched
  have handled : Handled project options event before done.2 := by
    refine .completed ?_ finishes
    exact classified
  exact handled

/-- Files change, and the engine hears of a manifest. -/
theorem Tracked.updated {unseen refused : String → Prop} {before : Engine × Disk}
    (tracked : Tracked project options unseen refused before) {files : FileTree}
    (grounded : Disk.Grounded { before.2 with files := files }) {document : String}
    (spelled : project.relative path = document) (watched : document ∈ before.1.registry.manifests)
    {done : Except Failure Unit × Engine × Disk}
    (run : (handle project options .workspaceManifest .update document).run Disk.alone
      (before.1, { before.2 with files := files }) = done) (ends : done.1 = .ok ()) :
    ∃ unseenThen refusedThen, Tracked project options unseenThen refusedThen done.2
      ∧ (∀ workspace, unseenThen workspace → ¬Concerns before.1.registry document workspace
        ∧ (unseen workspace ∨ ¬∀ name, Disk.Carries { before.2 with files := files } workspace name
          ↔ before.2.Carries workspace name))
      ∧ ∀ workspace, Concerns before.1.registry document workspace → refusedThen workspace →
        Refused workspace done.2 := by
  have handled : Handled project options { change := .update, path }
      (before.1, { before.2 with files := files }) done.2 :=
    .updated (before.1, { before.2 with files := files }) tracked.keeps.orderly.sound spelled watched
      run ends
  subst spelled
  refine ⟨_, _, (tracked.edited files grounded).handled _ handled, ?_, ?_⟩
  · intro workspace unseen
    by_cases concerns : Concerns before.1.registry (project.relative path) workspace
    · rw [if_pos concerns] at unseen
      cases unseen.1
    · rw [if_neg concerns] at unseen
      exact ⟨concerns, unseen⟩
  · intro workspace concerns refused
    rwa [if_pos concerns] at refused

/-- One workspace gives up its name, and then the other one takes it. -/
theorem name_is_handed_over :
    ∃ unseen refused state, Tracked ⟨"/p"⟩ {} unseen refused state
      ∧ "b" ∈ state.1.registry.watched ∧ ¬unseen "b" ∧ ¬refused "b"
      ∧ state.2.Carries "b" "x" ∧ state.1.registry.findName "b" = some "x" := by
  let disk : Disk := { project := ⟨"/p"⟩, files := namedFiles "x" "y" }
  have grounded : disk.Grounded := grounded_namedFiles "x" "y" (show disk.project = ⟨"/p"⟩ from rfl)
  obtain ⟨begun, isBegun⟩ : ∃ begun, (start ⟨"/p"⟩ {}).run Disk.alone ({}, disk) = begun := ⟨_, rfl⟩
  obtain ⟨freed, isFreed⟩ : ∃ freed, (handle ⟨"/p"⟩ {} .workspaceManifest .update "a/package.json").run
      Disk.alone (begun.2.1, { begun.2.2 with files := namedFiles "z" "y" }) = freed := ⟨_, rfl⟩
  obtain ⟨done, isDone⟩ : ∃ done, (handle ⟨"/p"⟩ {} .workspaceManifest .update "b/package.json").run
      Disk.alone (freed.2.1, { freed.2.2 with files := namedFiles "z" "x" }) = done := ⟨_, rfl⟩
  obtain ⟨frees, ends, first, second, watched, named, carries⟩ :
      freed.1 = .ok () ∧ done.1 = .ok () ∧ "a/package.json" ∈ begun.2.1.registry.manifests
      ∧ "b/package.json" ∈ freed.2.1.registry.manifests ∧ "b" ∈ done.2.1.registry.watched
      ∧ done.2.1.registry.findName "b" = some "x" ∧ done.2.2.Carries "b" "x" := by
    subst isDone isFreed isBegun
    decide +kernel
  have starts := run_finishes Disk.alone (start ⟨"/p"⟩ {}) ({}, disk)
  rw [isBegun] at starts
  have begins := Tracked.started disk rfl grounded starts
  have spelledFirst : (Project.mk "/p").relative "/p/a/package.json" = "a/package.json" := by
    decide +kernel
  have spelledSecond : (Project.mk "/p").relative "/p/b/package.json" = "b/package.json" := by
    decide +kernel
  obtain ⟨_, _, between, _⟩ := begins.updated (grounded_namedFiles "z" "y" begins.keeps.same)
    spelledFirst first isFreed frees
  obtain ⟨unseen, refused, tracked, unseenOnly, refusedOnly⟩ :=
    between.updated (grounded_namedFiles "z" "x" between.keeps.same) spelledSecond second isDone ends
  have concerns : Concerns freed.2.1.registry "b/package.json" "b" := Or.inr (by decide +kernel)
  have seen : ¬unseen "b" := fun stale => (unseenOnly "b" stale).1 concerns
  have free : ¬refused "b" := by
    intro lost
    obtain ⟨name, holder, carriesName, other, held⟩ := refusedOnly "b" concerns lost
    rw [carries.unique carriesName] at held
    exact other (tracked.keeps.orderly.sound.one_workspace held named)
  exact ⟨unseen, refused, done.2, tracked, watched, seen, free, carries,
    (names_follow_manifests tracked watched seen free "x").1.mpr carries⟩

/-- One workspace wants the name of the other one, which gives it up later. Nobody has it then, although
the engine has looked at all manifests as they are, and only one of them gives it. -/
theorem refused_name_is_not_claimed :
    ∃ unseen refused state, Tracked ⟨"/p"⟩ {} unseen refused state
      ∧ (∀ workspace ∈ state.1.registry.watched, ¬unseen workspace)
      ∧ (∀ record ∈ state.1.log, record.level ≠ .error)
      ∧ "b" ∈ state.1.registry.watched ∧ state.2.Carries "b" "x"
      ∧ (∀ other ∈ state.1.registry.watched, state.2.Carries other "x" → other = "b")
      ∧ state.1.registry.findName "b" = none ∧ state.1.registry.findPath "x" = none := by
  let disk : Disk := { project := ⟨"/p"⟩, files := namedFiles "x" "y" }
  have grounded : disk.Grounded := grounded_namedFiles "x" "y" (show disk.project = ⟨"/p"⟩ from rfl)
  obtain ⟨begun, isBegun⟩ : ∃ begun, (start ⟨"/p"⟩ {}).run Disk.alone ({}, disk) = begun := ⟨_, rfl⟩
  obtain ⟨lost, isLost⟩ : ∃ lost, (handle ⟨"/p"⟩ {} .workspaceManifest .update "b/package.json").run
      Disk.alone (begun.2.1, { begun.2.2 with files := namedFiles "x" "x" }) = lost := ⟨_, rfl⟩
  obtain ⟨done, isDone⟩ : ∃ done, (handle ⟨"/p"⟩ {} .workspaceManifest .update "a/package.json").run
      Disk.alone (lost.2.1, { lost.2.2 with files := namedFiles "z" "x" }) = done := ⟨_, rfl⟩
  obtain ⟨starts, loses, ends, errors, first, second, watched, unnamed, unclaimed, before, edited, after,
      other⟩ : begun.1 = .ok () ∧ lost.1 = .ok () ∧ done.1 = .ok ()
      ∧ (∀ record ∈ done.2.1.log, record.level ≠ .error)
      ∧ "b/package.json" ∈ begun.2.1.registry.manifests
      ∧ "a/package.json" ∈ lost.2.1.registry.manifests ∧ done.2.1.registry.watched = ["a", "b"]
      ∧ done.2.1.registry.findName "b" = none ∧ done.2.1.registry.findPath "x" = none
      ∧ lost.2.2.Carries "b" "x"
      ∧ Disk.Carries { lost.2.2 with files := namedFiles "z" "x" } "b" "x"
      ∧ done.2.2.Carries "b" "x" ∧ ¬done.2.2.Carries "a" "x" := by
    subst isDone isLost isBegun
    decide +kernel
  have begins := run_finishes Disk.alone (start ⟨"/p"⟩ {}) ({}, disk)
  rw [isBegun, starts] at begins
  have started := Tracked.started disk rfl grounded begins
  have spelledFirst : (Project.mk "/p").relative "/p/b/package.json" = "b/package.json" := by
    decide +kernel
  have spelledSecond : (Project.mk "/p").relative "/p/a/package.json" = "a/package.json" := by
    decide +kernel
  obtain ⟨_, _, between, unseenFirst, _⟩ := started.updated
    (grounded_namedFiles "x" "x" started.keeps.same) spelledFirst first isLost loses
  obtain ⟨unseen, refused, tracked, unseenOnly, _⟩ := between.updated
    (grounded_namedFiles "z" "x" between.keeps.same) spelledSecond second isDone ends
  refine ⟨unseen, refused, done.2, tracked, fun workspace member stale => ?_, errors, ?_, after,
    fun workspace member carries => ?_, unnamed, unclaimed⟩
  · obtain ⟨unconcerned, earlier⟩ := unseenOnly workspace stale
    rw [watched, List.mem_pair] at member
    rcases member with rfl | rfl
    · exact unconcerned (Or.inr (by decide +kernel))
    · rcases earlier with stale | differs
      · exact (unseenFirst "b" stale).1 (Or.inr (by decide +kernel))
      · refine differs fun name => ⟨fun carries => ?_, fun carries => ?_⟩
        · rw [edited.unique carries]
          exact before
        · rw [before.unique carries]
          exact edited
  · rw [watched]
    decide
  · rw [watched, List.mem_pair] at member
    rcases member with rfl | rfl
    · exact absurd carries other
    · rfl

end Watch
end RefSync
