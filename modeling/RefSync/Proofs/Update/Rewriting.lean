/-
Documents that several routines rewrite side by side. Two of them may come to one file under
different paths, and neither waits for the other; since a document that was rewritten needs no second
update, it does not matter which of them comes first. What has been rewritten stays so.
-/

import RefSync.Proofs.Routine.Alone
import RefSync.Proofs.Update.Permitted

namespace RefSync.Update

open Routine Path

attribute [local irreducible] Disk.write

/-! ### Plans -/

/-- A document with the update it is to get, if it needs one. -/
structure Rewrite (origin : Disk) where
  path : String
  document : Document
  update : Option Document
  reads : origin.read path = .ok (.obj document)
  clean updated : update = some updated → Document.Clean updated
  named : ∃ name, (parts path).getLast? = some name ∧ name ≠ ".."

def Rewrite.target {origin : Disk} (one : Rewrite origin) : Document :=
  one.update.getD one.document

/-- The documents that are rewritten, each place in one way. -/
structure Plan (origin : Disk) where
  rewrites : Rewrite origin → Prop
  agree one other : rewrites one → rewrites other →
    origin.project.resolved other.path = origin.project.resolved one.path → other.target = one.target

/-- The places in which something is written. -/
def Plan.Touches {origin : Disk} (plan : Plan origin) (place : Place) : Prop :=
  ∃ one, plan.rewrites one ∧ one.update ≠ none ∧ place = origin.project.resolved one.path

/-- A manifest in which a dependency is renamed. -/
structure RenamesManifest {origin : Disk} (one : Rewrite origin) (workspace old new : String) : Prop where
  path : one.path = Workspace.manifestPath workspace
  update : Manifest.renameDependency? one.document old new = one.update
  again : Manifest.renameDependency? one.target old new = none

/-- A config in which aliases are renamed. -/
structure RenamesConfig {origin : Disk} (one : Rewrite origin) (workspace old new : String) : Prop where
  path : one.path = Workspace.configPath workspace
  update : renamedConfig? one.document (some (old, new)) = .ok one.update
  again : renamedConfig? one.target (some (old, new)) = .ok none

/-- Whether a plan says what a rename makes of the documents of a workspace. -/
structure Plan.Covers {origin : Disk} (plan : Plan origin) (workspace old new : String) : Prop where
  manifest : ∃ one, plan.rewrites one ∧ RenamesManifest one workspace old new
  config : (∃ shown, origin.read (Workspace.configPath workspace) = .error (.missing shown))
    ∨ ∃ one, plan.rewrites one ∧ RenamesConfig one workspace old new

/-- Nothing is different but planned documents, each of which is as it was or has been rewritten, and
those that are done have been. -/
structure Rewriting {origin : Engine × Disk} (plan : Plan origin.2) (done : String → Prop)
    (now : Engine × Disk) : Prop where
  registry : now.1.registry = origin.1.registry
  project : now.2.project = origin.2.project
  files : FileTree.Alters plan.Touches origin.2.files now.2.files
  held one : plan.rewrites one →
    now.2.read one.path = .ok (.obj one.document) ∨ now.2.read one.path = .ok (.obj one.target)
  carried one : plan.rewrites one → done one.path → now.2.read one.path = .ok (.obj one.target)
  idle : (∀ one, plan.rewrites one → one.update = none) → now.2 = origin.2

/-- What is done stays done. -/
def rewriting {origin : Engine × Disk} (plan : Plan origin.2) : Conduct Disk where
  allows before after := ∀ done, Rewriting plan done before → Rewriting plan done after
  refl _ _ := id
  trans first second done := second done ∘ first done

section

variable {origin now : Engine × Disk} {plan : Plan origin.2} {done : String → Prop}
  {one : Rewrite origin.2}

theorem Rewriting.begins (plan : Plan origin.2) : Rewriting plan (fun _ => False) origin where
  registry := rfl
  project := rfl
  files := FileTree.Alters.refl _ _
  held one _ := Or.inl one.reads
  carried _ _ := False.elim
  idle _ := rfl

theorem Rewriting.weaken (rewriting : Rewriting plan done now) {fewer : String → Prop}
    (implies : ∀ path, fewer path → done path) : Rewriting plan fewer now :=
  { rewriting with
    carried := fun one planned isDone => rewriting.carried one planned (implies one.path isDone) }

theorem Rewriting.logs (rewriting : Rewriting plan done now) (log : List LogRecord) :
    Rewriting plan done ({ now.1 with log := log }, now.2) :=
  { rewriting with }

theorem Rewriting.also (rewriting : Rewriting plan done now) (planned : plan.rewrites one)
    (reads : now.2.read one.path = .ok (.obj one.target)) :
    Rewriting plan (fun path => done path ∨ path = one.path) now :=
  { rewriting with
    carried := by
      intro other among isDone
      rcases isDone with before | same
      · exact rewriting.carried other among before
      · rw [same, plan.agree one other planned among (congrArg _ same)]
        exact reads }

/-- There is nothing to rewrite where a document is missing, and it is missed all the time. -/
theorem Rewriting.passed (rewriting : Rewriting plan done now) {path shown : String}
    (missing : origin.2.read path = .error (.missing shown)) :
    Rewriting plan (fun other => done other ∨ other = path) now :=
  { rewriting with
    carried := by
      intro one planned isDone
      rcases isDone with before | rfl
      · exact rewriting.carried one planned before
      · have reads := one.reads
        rw [missing] at reads
        cases reads }

theorem Rewriting.missing (rewriting : Rewriting plan done now) {path shown : String}
    (missing : origin.2.read path = .error (.missing shown)) :
    now.2.read path = .error (.missing shown) :=
  Disk.missing_of_alters rewriting.project rewriting.files missing

theorem Rewriting.unchanged (rewriting : Rewriting plan done now) (planned : plan.rewrites one)
    (update : one.update = none) : Rewriting plan (fun path => done path ∨ path = one.path) now := by
  apply rewriting.also planned
  have same : one.target = one.document := by
    rw [Rewrite.target, update, Option.getD_none]
  have held := rewriting.held one planned
  rw [same, or_self] at held
  rw [same]
  exact held

theorem Rewriting.holds (rewriting : Rewriting plan done now) (planned : plan.rewrites one) :
    ∃ document content, now.2.read one.path = .ok (.obj document) ∧ now.2.Holds one.path content := by
  have reads : ∃ document, now.2.read one.path = .ok (.obj document) := by
    rcases rewriting.held one planned with held | held
    · exact ⟨_, held⟩
    · exact ⟨_, held⟩
  obtain ⟨document, reads⟩ := reads
  obtain ⟨content, _, holds, _⟩ := Disk.read_eq_ok.mp reads
  exact ⟨document, content, reads, holds⟩

theorem Rewriting.written (rewriting : Rewriting plan done now) (planned : plan.rewrites one)
    (updated : Document) : (now.2.write one.path updated).1 = .ok () := by
  obtain ⟨name, last, named⟩ := one.named
  obtain ⟨_, content, _, holds⟩ := rewriting.holds planned
  rw [Disk.write_of_holds holds last named updated]

/-- Writing a document is what it takes, there and wherever else the place is rewritten. -/
theorem Rewriting.write (rewriting : Rewriting plan done now) (planned : plan.rewrites one)
    {updated : Document} (update : one.update = some updated) :
    Rewriting plan (fun path => done path ∨ path = one.path)
      (now.1, (now.2.write one.path updated).2) := by
  obtain ⟨name, last, named⟩ := one.named
  have target : one.target = updated := by
    rw [Rewrite.target, update, Option.getD_some]
  obtain ⟨_, content, readsOne, holds⟩ := rewriting.holds planned
  have same : (now.2.write one.path updated).2.project = now.2.project := by
    rw [(Disk.puts_write now.2 one.path updated).2]
  have there (other : Rewrite origin.2) (among : plan.rewrites other)
      (alike : now.2.project.resolved other.path = now.2.project.resolved one.path) :
      (now.2.write one.path updated).2.read other.path = .ok (.obj other.target) := by
    obtain ⟨_, _, readsOther, _⟩ := rewriting.holds among
    have written := Disk.read_write_alike readsOne readsOther alike last named (one.clean updated update)
    rw [rewriting.project] at alike
    rw [plan.agree one other planned among alike, target]
    exact written
  have elsewhere (other : Rewrite origin.2)
      (apart : now.2.project.resolved other.path ≠ now.2.project.resolved one.path) {value : Json}
      (held : now.2.read other.path = .ok value) :
      (now.2.write one.path updated).2.read other.path = .ok value :=
    Disk.read_keeps same (Disk.keeps_write now.2 one.path updated) held apart
  refine ⟨rewriting.registry, same.trans rewriting.project, ?_, ?_, ?_, ?_⟩
  · rw [Disk.write_of_holds holds last named updated]
    have touches : plan.Touches (now.2.project.resolved one.path) := by
      refine ⟨one, planned, ?_, ?_⟩
      · rw [update]
        exact Option.some_ne_none updated
      · rw [rewriting.project]
    exact rewriting.files.trans (FileTree.alters_put touches holds.found _)
  · intro other among
    by_cases alike : now.2.project.resolved other.path = now.2.project.resolved one.path
    · exact Or.inr (there other among alike)
    · exact (rewriting.held other among).imp (elsewhere other alike) (elsewhere other alike)
  · intro other among isDone
    by_cases alike : now.2.project.resolved other.path = now.2.project.resolved one.path
    · exact there other among alike
    · rcases isDone with before | same
      · exact elsewhere other alike (rewriting.carried other among before)
      · exact absurd (congrArg _ same) alike
  · intro rests
    rw [rests one planned] at update
    cases update

/-! ### Routines that rewrite -/

theorem endures_rewriting : Endures (rewriting plan) (Rewriting plan done) :=
  fun _ _ allowed => allowed done

theorem abides_noted (level : Level) (message : String) :
    Abides Disk.alone (rewriting plan) (fun _ => False) (Rewriting plan done) (log level message)
      fun _ => Rewriting plan done := by
  apply abides_modify
  intro state holds
  exact ⟨fun _ before => before.logs _, holds.logs _⟩

/-- What is read is what there was, or the document has been rewritten. -/
theorem abides_reads (planned : plan.rewrites one) :
    Abides Disk.alone (rewriting plan) (fun _ => False) (Rewriting plan done) (ask (.read one.path))
      fun given state => Rewriting plan done state ∧ given = .ok (.obj one.document)
        ∨ Rewriting plan (fun path => done path ∨ path = one.path) state
          ∧ given = .ok (.obj one.target) := by
  apply (abides_ask (.read one.path) endures_rewriting fun _ _ => (rewriting plan).refl _).weaken
  rintro given state ⟨holds, asked, before, same, allowed⟩
  rcases before.held one planned with reads | reads
  · exact Or.inl ⟨holds, same.trans reads⟩
  · exact Or.inr ⟨allowed _ (before.also planned reads), same.trans reads⟩

/-- What is made of a planned document that was read. -/
theorem abides_finds {α : Type} (planned : plan.rewrites one) (found : Document → α)
    {rest : Except ReadFault Json → Routine α}
    (gives : ∀ document, rest (.ok (.obj document)) = pure (found document)) :
    Abides Disk.alone (rewriting plan) (fun _ => False) (Rewriting plan done)
      (ask (.read one.path) >>= rest)
      fun value state => Rewriting plan done state ∧ value = found one.document
        ∨ Rewriting plan (fun path => done path ∨ path = one.path) state ∧ value = found one.target := by
  apply (abides_reads planned).bind
  intro given
  apply Abides.or
  · apply Abides.given
    rintro rfl
    rw [gives]
    exact abides_pure fun _ holds => Or.inl ⟨holds, rfl⟩
  · apply Abides.given
    rintro rfl
    rw [gives]
    exact abides_pure fun _ holds => Or.inr ⟨holds, rfl⟩

/-- The end of an update that has something to write. -/
theorem abides_rewrites (planned : plan.rewrites one) {updated : Document}
    (update : one.update = some updated) (level : Level) (message : String) :
    Abides Disk.alone (rewriting plan) (fun _ => False) (Rewriting plan done) (do
      writeDocument one.path updated
      log level message
      return true) fun _ => Rewriting plan fun path => done path ∨ path = one.path := by
  have permitted (state : Engine × Disk) (_ : Rewriting plan done state) :
      (rewriting plan).allows state (Disk.alone (.write one.path updated) state).2 := by
    rw [Disk.alone_write]
    intro some before
    exact (before.write planned update).weaken fun _ => Or.inl
  have writes : Abides Disk.alone (rewriting plan) (fun _ => False) (Rewriting plan done)
      (ask (.write one.path updated)) fun given state =>
        Rewriting plan (fun path => done path ∨ path = one.path) state ∧ given = .ok () := by
    apply (abides_ask _ endures_rewriting permitted).weaken
    rintro given state ⟨_, asked, before, same, allowed⟩
    rw [Disk.alone_write] at same allowed
    exact ⟨allowed _ (before.write planned update), same.trans (before.written planned updated)⟩
  apply Abides.bind fun _ => Rewriting plan fun path => done path ∨ path = one.path
  · apply writes.bind
    intro given
    apply Abides.given
    rintro rfl
    exact abides_pure fun _ => id
  · intro _
    apply (abides_noted level message).bind
    exact fun _ => abides_pure fun _ => id

/-- A document that needs no update is done. -/
theorem abides_done (planned : plan.rewrites one) (update : one.update = none) {value : Bool} :
    Abides Disk.alone (rewriting plan) (fun _ => False) (Rewriting plan done) (pure value)
      fun _ => Rewriting plan fun path => done path ∨ path = one.path :=
  abides_pure fun _ holds => holds.unchanged planned update

section

variable {workspace old new : String}

/-- The manifest of a dependent gets the new name, once. -/
theorem abides_dependencyName_planned (planned : plan.rewrites one)
    (renames : RenamesManifest one workspace old new) :
    Abides Disk.alone (rewriting plan) (fun _ => False) (Rewriting plan done)
      (dependencyName workspace old new)
      fun _ => Rewriting plan fun path => done path ∨ path = one.path := by
  apply abides_anyRegistry
  intro registry
  rw [← renames.path]
  have reads : Abides Disk.alone (rewriting plan) (fun _ => False) (Rewriting plan done)
      (readObject one.path) fun document state => Rewriting plan done state ∧ document = one.document
        ∨ Rewriting plan (fun path => done path ∨ path = one.path) state ∧ document = one.target :=
    abides_finds planned id fun _ => rfl
  apply reads.bind
  intro document
  apply Abides.or
  · apply Abides.given
    rintro rfl
    rw [renames.update]
    cases needed : one.update with
    | none => exact abides_done planned needed
    | some updated => exact abides_rewrites planned needed _ _
  · apply Abides.given
    rintro rfl
    rw [renames.again]
    exact abides_pure fun _ => id

theorem abides_reads_missing {path shown : String}
    (missing : origin.2.read path = .error (.missing shown)) :
    Abides Disk.alone (rewriting plan) (fun _ => False) (Rewriting plan done) (readObject? path)
      fun config state => Rewriting plan done state ∧ config = none := by
  have asks : Abides Disk.alone (rewriting plan) (fun _ => False) (Rewriting plan done)
      (ask (.read path)) fun given state =>
        Rewriting plan done state ∧ given = .error (.missing shown) := by
    apply (abides_ask (.read path) endures_rewriting fun _ _ => (rewriting plan).refl _).weaken
    rintro given state ⟨holds, asked, before, same, _⟩
    exact ⟨holds, same.trans (before.missing missing)⟩
  apply asks.bind
  intro given
  apply Abides.given
  rintro rfl
  exact abides_pure fun _ holds => ⟨holds, rfl⟩

variable {project : Project} (resolves : ∃ aliases,
  targetAliases project origin.1.registry workspace origin.1.registry.allNames = .ok aliases)

include resolves

/-- The config of a dependent gets the aliases of the new name, once, and is not made. -/
theorem abides_aliases_planned (covers : plan.Covers workspace old new) :
    Abides Disk.alone (rewriting plan) (fun _ => False) (Rewriting plan done)
      (aliases project workspace (some (old, new)))
      fun _ => Rewriting plan fun path => done path ∨ path = Workspace.configPath workspace := by
  apply abides_registry
  intro state holds
  obtain ⟨given, resolved⟩ := resolves
  dsimp only
  rw [holds.registry, resolved]
  apply Abides.bind fun _ => Rewriting plan done
  · exact abides_pure fun later same => same ▸ holds
  intro _
  rcases covers.config with ⟨shown, missing⟩ | ⟨one, planned, renames⟩
  · apply (abides_reads_missing missing).bind
    intro config
    apply Abides.given
    rintro rfl
    exact abides_pure fun _ before => before.passed missing
  · have reads : Abides Disk.alone (rewriting plan) (fun _ => False) (Rewriting plan done)
        (readObject? one.path) fun config state =>
          Rewriting plan done state ∧ config = some one.document
            ∨ Rewriting plan (fun path => done path ∨ path = one.path) state
              ∧ config = some one.target :=
      abides_finds planned some fun _ => rfl
    rw [← renames.path]
    apply reads.bind
    intro config
    apply Abides.or
    · apply Abides.given
      rintro rfl
      dsimp only
      rw [renames.update]
      cases needed : one.update with
      | none => exact abides_done planned needed
      | some updated => exact abides_rewrites planned needed _ _
    · apply Abides.given
      rintro rfl
      dsimp only
      rw [renames.again]
      exact abides_pure fun _ => id

/-- Both documents of a dependent. -/
theorem abides_dependent (covers : plan.Covers workspace old new) :
    Abides Disk.alone (rewriting plan) (fun _ => False) (Rewriting plan done) (do
      let _ ← dependencyName workspace old new
      aliases project workspace (some (old, new)))
      fun _ => Rewriting plan fun path => (done path ∨ path = Workspace.manifestPath workspace)
        ∨ path = Workspace.configPath workspace := by
  obtain ⟨one, planned, renames⟩ := covers.manifest
  have manifest : Abides Disk.alone (rewriting plan) (fun _ => False) (Rewriting plan done)
      (dependencyName workspace old new)
      fun _ => Rewriting plan fun path => done path ∨ path = Workspace.manifestPath workspace := by
    rw [← renames.path]
    exact abides_dependencyName_planned planned renames
  exact manifest.bind _ fun _ => abides_aliases_planned resolves covers

end

/-! ### A rename as a whole -/

/-- Whether a path is that of a document that a rename may concern. -/
def IsDocument (workspaces : List String) (path : String) : Prop :=
  ∃ workspace ∈ workspaces, path = Workspace.manifestPath workspace
    ∨ path = Workspace.configPath workspace

/-- A rename is carried to all dependents, which have to be in their places. -/
theorem leads_name_planned {project : Project} {plan : Plan origin.2} {old new : String}
    {workspaces : List String}
    (placed : (origin.1.registry.dependentsOf new).mapM origin.1.registry.pathOf = .ok workspaces)
    (resolves : ∀ workspace, ∃ aliases,
      targetAliases project origin.1.registry workspace origin.1.registry.allNames = .ok aliases)
    (covers : ∀ workspace ∈ workspaces, plan.Covers workspace old new) :
    Leads Disk.alone (Update.name project old new) origin fun result later =>
      result = .ok (origin.1.registry.dependentsOf new)
        ∧ Rewriting plan (IsDocument workspaces) later := by
  have each (workspace : String) (member : workspace ∈ workspaces) :
      Abides Disk.alone (rewriting plan) (fun _ => False) (Rewriting plan fun _ => False) (do
        let _ ← dependencyName workspace old new
        aliases project workspace (some (old, new)))
        fun _ => Rewriting plan fun path => path = Workspace.manifestPath workspace
          ∨ path = Workspace.configPath workspace := by
    apply (abides_dependent (resolves workspace) (covers workspace member)).weaken
    intro _ state rewritten
    exact rewritten.weaken fun path own => own.imp_left Or.inr
  have group := abides_all endures_rewriting (fun _ => endures_rewriting) each
  unfold Update.name
  apply leads_registry
  apply leads_ok placed
  apply (group.leads (Rewriting.begins plan)).bind
  · rintro values later ⟨_, holds, ends⟩
    apply leads_pure
    refine ⟨rfl, { holds with carried := ?_ }⟩
    intro one planned isDone
    obtain ⟨workspace, member, own⟩ := isDone
    exact (ends workspace member).carried one planned own
  · rintro failure later ⟨_, ⟨_, none⟩, _⟩
    exact none.elim

/-! ### What is read in the end -/

section

variable {workspace old new : String} (rewritten : Rewriting plan done now)
  (covers : plan.Covers workspace old new)

include rewritten covers

theorem Rewriting.manifest (isDone : done (Workspace.manifestPath workspace)) {document : Document}
    (reads : origin.2.read (Workspace.manifestPath workspace) = .ok (.obj document)) :
    now.2.read (Workspace.manifestPath workspace)
        = .ok (.obj ((Manifest.renameDependency? document old new).getD document))
      ∧ Manifest.renameDependency? ((Manifest.renameDependency? document old new).getD document) old new
        = none := by
  obtain ⟨one, planned, renames⟩ := covers.manifest
  have read := one.reads
  rw [renames.path, reads] at read
  cases read
  rw [← renames.path] at isDone ⊢
  rw [renames.update]
  exact ⟨rewritten.carried one planned isDone, renames.again⟩

theorem Rewriting.config (isDone : done (Workspace.configPath workspace)) {config : Document}
    (reads : origin.2.read (Workspace.configPath workspace) = .ok (.obj config)) :
    ∃ update, renamedConfig? config (some (old, new)) = .ok update
      ∧ now.2.read (Workspace.configPath workspace) = .ok (.obj (update.getD config))
      ∧ renamedConfig? (update.getD config) (some (old, new)) = .ok none := by
  rcases covers.config with ⟨shown, missing⟩ | ⟨one, planned, renames⟩
  · rw [missing] at reads
    cases reads
  · have read := one.reads
    rw [renames.path, reads] at read
    cases read
    rw [← renames.path] at isDone ⊢
    exact ⟨one.update, renames.update, rewritten.carried one planned isDone, renames.again⟩

end

end

end RefSync.Update
