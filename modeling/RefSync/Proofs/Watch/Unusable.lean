/-
Artifacts that nothing can be made of. One that is not there, cannot be read or is no artifact is
complained about, after some attempts; of a workspace that is not ready it is not even read. Messages
and pauses are all that comes of it, unless a pause on the way has no length.
-/

import RefSync.Proofs.Binary64.Growth
import RefSync.Proofs.Watch.Commuting
import RefSync.Proofs.Watch.Permitted
import RefSync.Proofs.Watch.Replacing

namespace RefSync

open Routine Path

/-- Whether a document is there and is an artifact. -/
def Disk.HoldsArtifact (disk : Disk) (path : String) : Prop :=
  ∃ value artifact, disk.read path = .ok value ∧ Artifact.validate value = .ok artifact

theorem Disk.HoldsArtifact.isOk {disk : Disk} {path : String} (holds : disk.HoldsArtifact path) :
    (disk.read path).isOk = true := by
  obtain ⟨value, artifact, reads, _⟩ := holds
  rw [reads]
  rfl

namespace Watch

/-- Where the first pause is a double, there is one after each of the first 1511 attempts. -/
theorem pausesEnd_iff {options : SyncOptions} {seconds : Binary64}
    (rounded : options.artifactDelay = .rounded seconds) :
    PausesEnd options ↔ options.artifactAttempts ≤ 1512 := by
  unfold PausesEnd
  rw [rounded]
  simp only [Duration.grown?_isSome_iff]
  constructor
  · intro ends
    by_contra more
    have last := ends 1511 (by omega)
    omega
  · intro few failures within
    omega

/-- Whether reading an artifact again and again comes to a pause without a length. -/
def Hangs (options : SyncOptions) (state : Engine × Disk) (path : String) : Prop :=
  path ∈ state.1.registry.artifacts ∧ state.1.registry.isReady (Workspace.ofArtifact path) = true
    ∧ (state.2.read path).isOk = false ∧ ¬PausesEnd options

instance (options : SyncOptions) (state : Engine × Disk) (path : String) :
    Decidable (Hangs options state path) :=
  inferInstanceAs (Decidable (_ ∧ _ ∧ _ ∧ _))

/-- Whether nothing but messages and pauses was added. -/
def Waits (before after : Engine × Disk) : Prop :=
  ∃ (records : List LogRecord) (pauses : List Duration),
    after = ({ before.1 with log := before.1.log ++ records },
      { before.2 with pauses := before.2.pauses ++ pauses })

section

variable {project : Project} {options : SyncOptions} {now : Engine × Disk} {path : String}

theorem Waits.refl (state : Engine × Disk) : Waits state state :=
  ⟨[], [], by rw [List.append_nil, List.append_nil]⟩

theorem Waits.trans {first second third : Engine × Disk} (one : Waits first second)
    (two : Waits second third) : Waits first third := by
  obtain ⟨records, pauses, rfl⟩ := one
  obtain ⟨more, longer, rfl⟩ := two
  exact ⟨records ++ more, pauses ++ longer, by rw [List.append_assoc, List.append_assoc]⟩

theorem waits_logged (now : Engine × Disk) (record : LogRecord) :
    Waits now ({ now.1 with log := now.1.log ++ [record] }, now.2) :=
  ⟨[record], [], by rw [List.append_nil]⟩

theorem waits_paused (now : Engine × Disk) (pause : Duration) :
    Waits now (now.1, { now.2 with pauses := now.2.pauses ++ [pause] }) :=
  ⟨[], [pause], by rw [List.append_nil]⟩

/-- A document that cannot be read is read as often as it may be, and the cause is told. It takes a
pause without a length to end sooner. -/
theorem leads_readAgain_failed {shown : String} {delay : Duration} {cause : ReadFault}
    (more failures : Nat) (fails : now.2.read path = .error cause) :
    Leads Disk.alone (readAgain path shown delay more failures) now fun result later =>
      Waits now later ∧ result = if ∀ index < more, (delay.grown? (failures + index)).isSome
        then .ok (.error ⟨shown, failures + more + 1, cause⟩) else .error [.endlessPause] := by
  induction more generalizing failures now with
  | zero =>
      rw [readAgain.eq_def]
      apply leads_read
      rw [fails]
      apply leads_pure
      exact ⟨.refl now, by simp⟩
  | succ more ih =>
      rw [readAgain.eq_def]
      apply leads_read
      rw [fails]
      dsimp only
      simp only [Nat.forall_lt_succ_left, Nat.add_zero]
      cases grown : delay.grown? failures with
      | none =>
          apply leads_throw
          exact ⟨.refl now, by simp⟩
      | some pause =>
          apply leads_ask
          let paused : Engine × Disk := (now.1, { now.2 with pauses := now.2.pauses ++ [pause] })
          have still : paused.2.read path = .error cause := fails
          apply (ih (failures + 1) still).weaken
          rintro result later ⟨waits, ends⟩
          refine ⟨(waits_paused now pause).trans waits, ends.trans ?_⟩
          simp [Nat.add_assoc, Nat.add_comm 1]

theorem leads_complain {β : Type} {message : String} {rest : Option Artifact → Routine β}
    {post : Except Failure β → Engine × Disk → Prop}
    (goesOn : ∀ later, Waits now later → Leads Disk.alone (rest none) later post) :
    Leads Disk.alone (artifactOf.complain path message >>= rest) now post :=
  leads_assoc (leads_log (goesOn _ (waits_logged now _)))

/-- What comes of an artifact that was written and that nothing can be made of. -/
theorem leads_artifactWritten_unusable (watched : path ∈ now.1.registry.artifacts)
    (named : now.1.registry.isReady (Workspace.ofArtifact path) = true →
      (now.1.registry.findName (Workspace.ofArtifact path)).isSome)
    (unusable : now.1.registry.isReady (Workspace.ofArtifact path) = true →
      ¬now.2.HoldsArtifact path) :
    Leads Disk.alone (artifactWritten project options path) now fun result later =>
      Waits now later
        ∧ result = if Hangs options now path then .error [.endlessPause] else .ok () := by
  unfold artifactWritten
  dsimp only
  apply leads_registry
  apply leads_onlyIf
  · intro ready
    obtain ⟨name, known⟩ := Option.isSome_iff_exists.mp (named ready)
    have found : now.1.registry.nameOf (Workspace.ofArtifact path) = .ok name := by
      rw [Registry.nameOf, known]
    apply leads_ok found
    unfold readRetrying
    cases read : now.2.read path with
    | ok value =>
        have goesOn : ¬Hangs options now path := fun hangs => by
          have failed := hangs.2.2.1
          rw [read] at failed
          cases failed
        rw [readAgain.eq_def]
        apply leads_assoc
        apply leads_read
        rw [read]
        cases valid : Artifact.validate value with
        | ok artifact => exact absurd ⟨value, artifact, read, valid⟩ (unusable ready)
        | error failure =>
            change Leads Disk.alone (artifactOf path (.ok value) >>= _) now _
            rw [artifactOf, valid]
            exact leads_complain fun later waits _ => ⟨waits, (if_neg goesOn).symm⟩
    | error cause =>
        have hangs : Hangs options now path ↔ ¬∀ index < options.artifactAttempts.toNat - 1,
            (options.artifactDelay.grown? (0 + index)).isSome := by
          have ends : PausesEnd options ↔ ∀ index < options.artifactAttempts.toNat - 1,
              (options.artifactDelay.grown? (0 + index)).isSome := by
            simp only [PausesEnd, Nat.zero_add, Nat.lt_sub_iff_add_lt]
          rw [Hangs, read, ← ends]
          exact ⟨fun all => all.2.2.2, fun endless => ⟨watched, ready, rfl, endless⟩⟩
        refine (leads_readAgain_failed _ 0 read).bind ?_ ?_
        · rintro outcome later ⟨waits, ends⟩
          split at ends
          · rename_i pauses
            cases ends
            apply leads_complain
            exact fun last more _ => ⟨waits.trans more, (if_neg fun stuck => hangs.mp stuck pauses).symm⟩
          · cases ends
        · rintro failure later ⟨waits, ends⟩
          split at ends
          · cases ends
          · rename_i endless
            cases ends
            exact ⟨waits, (if_pos (hangs.mpr endless)).symm⟩
  · intro unready
    refine ⟨.refl now, (if_neg fun hangs => ?_).symm⟩
    rw [hangs.2.1] at unready
    cases unready

end

/-- Whether an artifact counts as one that is there, after its event, and nothing else came of that but
messages and pauses. -/
def OnlyNoticed (change : Change) (path : String) (before after : Engine × Disk) : Prop :=
  Waits ({ before.1 with registry := noticed change path before.1.registry }, before.2) after

section

variable {change : Change} {path : String} {before after : Engine × Disk}
  (only : OnlyNoticed change path before after)

include only

theorem OnlyNoticed.registry : after.1.registry = noticed change path before.1.registry := by
  obtain ⟨records, pauses, rfl⟩ := only
  rfl

theorem OnlyNoticed.files : after.2.files = before.2.files := by
  obtain ⟨records, pauses, rfl⟩ := only
  rfl

end

/-- A failure that is only an endless pause is passed on as it is. -/
theorem settled_endless {now later : Engine × Disk} {result : Except Failure Unit}
    (settles : Settles? [.endlessPause] now result later) :
    result = .error [.endlessPause] ∧ later = now := by
  cases settles with
  | logged documents => exact absurd (documents _ List.mem_cons_self) Bool.false_ne_true
  | fatal fault member ends =>
      cases List.mem_singleton.mp member
      cases ends
  | raised => exact ⟨rfl, rfl⟩

attribute [local irreducible] start dispatch

section

variable {project : Project} {options : SyncOptions} {now : Engine × Disk} {path : String}

/-- What comes of the event of an artifact that is recognized. -/
theorem leads_dispatch_recognized (sound : now.1.registry.Sound project)
    (watched : path ∈ now.1.registry.artifacts)
    (unusable : now.1.registry.isReady (Workspace.ofArtifact path) = true →
      ¬now.2.HoldsArtifact path)
    {event : Event} (present : event.change ≠ .delete) (own : project.relative event.path = path) :
    Leads Disk.alone (dispatch project options event) now fun result later =>
      OnlyNoticed event.change path now later
        ∧ result = if Hangs options now path then .error [.endlessPause] else .ok () := by
  obtain ⟨watches, back⟩ := sound.ofArtifact watched
  have classified : classify project now.1.registry event.path = some .artifact := by
    rw [classify, own, ← back]
    exact classify_of_artifact sound (sound.relative watches) (back.symm ▸ watched)
  have handles : Leads Disk.alone
      (handle project options .artifact event.change (project.relative event.path)) now
      fun result later => OnlyNoticed event.change path now later
        ∧ result = if Hangs options now path then .error [.endlessPause] else .ok () := by
    rw [own]
    intro start
    refine meets_handle_present present fun records => ?_
    let unmarked : Engine × Disk :=
      ({ now.1 with registry := noticed event.change path now.1.registry }, now.2)
    let marked : Engine × Disk := ({ unmarked.1 with log := unmarked.1.log ++ records }, unmarked.2)
    obtain ⟨missing, marks⟩ := noticed_eq event.change path now.1.registry
    have same : marked.1.registry = { now.1.registry with missingArtifacts := missing } := marks
    have began : Waits unmarked marked := ⟨records, [], by rw [List.append_nil]⟩
    have alike : Hangs options marked path ↔ Hangs options now path := by
      unfold Hangs
      rw [same]
      rfl
    have written : Leads Disk.alone (artifactWritten project options path) marked
        fun result later => Waits marked later
          ∧ result = if Hangs options marked path then .error [.endlessPause] else .ok () := by
      apply leads_artifactWritten_unusable
      · rw [same]
        exact watched
      · rw [same]
        exact sound.named_of_ready
      · rw [same]
        exact unusable
    simp only [alike] at written
    exact (written start).weaken fun _ _ _ ended => ⟨began.trans ended.1, ended.2⟩
  apply (leads_dispatch classified handles).weaken
  rintro result later (⟨rfl, ended⟩ | ⟨failure, between, ⟨noticed, ended⟩, settles⟩)
  · exact ended
  · split at ended
    · cases ended
      obtain ⟨rfl, rfl⟩ := settled_endless settles
      exact ⟨noticed, by rw [if_pos ‹_›]⟩
    · cases ended

/-- The path that the events of an artifact come with is not watched where they are not recognized. -/
theorem unwatched_of_not_apart (sound : now.1.registry.Sound project) {workspace : String}
    (relative : project.IsRelative workspace) (lost : ¬Workspace.IsApart project workspace) :
    project.relative (Workspace.artifactPath workspace) ∉ now.1.registry.artifacts := by
  intro member
  obtain ⟨other, watches, same⟩ := sound.artifacts _ member
  have unknown := classify_of_not_apart sound relative lost
  rw [same] at member unknown
  rw [classify_of_artifact sound (sound.relative watches) member] at unknown
  cases unknown

theorem leads_dispatch_unusable (sound : now.1.registry.Sound project)
    (watched : path ∈ now.1.registry.artifacts)
    (unusable : now.1.registry.isReady (Workspace.ofArtifact path) = true →
      ¬now.2.HoldsArtifact path)
    {event : Event} (present : event.change ≠ .delete)
    (own : project.relative event.path = project.relative path) :
    Leads Disk.alone (dispatch project options event) now fun result later =>
      OnlyNoticed event.change (project.relative event.path) now later
        ∧ result = if Hangs options now (project.relative event.path) then .error [.endlessPause]
          else .ok () := by
  obtain ⟨workspace, watches, rfl⟩ := sound.artifacts path watched
  have relative := sound.relative watches
  by_cases apart : Workspace.IsApart project workspace
  · rw [(Workspace.relative_artifactPath relative).mpr apart] at own
    rw [own]
    exact leads_dispatch_recognized sound watched unusable present own
  · have unwatched := unwatched_of_not_apart sound relative apart
    have ignored := classify_of_not_apart sound relative apart
    rw [← own] at unwatched ignored
    apply (leads_dispatch_ignored ignored).weaken
    rintro result later ⟨rfl, rfl⟩
    -- What is missing is watched, so nothing is there to be unmarked.
    have untouched : noticed event.change (project.relative event.path) later.1.registry
        = later.1.registry := by
      have present : later.1.registry.missingArtifacts.contains (project.relative event.path) = false := by
        rw [List.contains_eq_mem, decide_eq_false_iff_not]
        exact mt (sound.missing _) unwatched
      unfold noticed
      rw [unmarkMissing_of_not_mem present, ite_self]
    refine ⟨?_, (if_neg fun hangs => unwatched hangs.1).symm⟩
    rw [OnlyNoticed, untouched]
    exact .refl later

end

/-- Whatever happened before, the event of an artifact that nothing can be made of, or whose workspace
is not ready, only makes it count as one that is there. It ends well, unless reading comes to a pause
without a length. -/
theorem unusable_artifacts_change_nothing (project : Project) (options : SyncOptions)
    {state : Engine × Disk} (visited : Visited project options state) {path : String}
    (watched : path ∈ state.1.registry.artifacts)
    (unusable : state.1.registry.isReady (Workspace.ofArtifact path) = true →
      ¬state.2.HoldsArtifact path)
    {event : Event} (present : event.change ≠ .delete)
    (own : project.relative event.path = project.relative path) :
    (PausesEnd options → Completes Disk.alone (dispatch project options event) state
      (OnlyNoticed event.change (project.relative event.path) state))
    ∧ ∀ result after, Finishes Disk.alone (dispatch project options event) state result after →
      OnlyNoticed event.change (project.relative event.path) state after
        ∧ result = if Hangs options state (project.relative event.path) then .error [.endlessPause]
          else .ok () := by
  have leads : Leads Disk.alone (dispatch project options event) state fun result later =>
      OnlyNoticed event.change (project.relative event.path) state later
        ∧ result = if Hangs options state (project.relative event.path) then .error [.endlessPause]
          else .ok () :=
    leads_dispatch_unusable visited.orderly.1.sound watched unusable present own
  refine ⟨fun ends => Leads.completes (leads.weaken ?_), fun _ _ finishes => leads.finishes finishes⟩
  rintro result later ⟨noticed, ended⟩
  rw [if_neg fun hangs => hangs.2.2.2 ends] at ended
  exact ⟨ended, noticed⟩

/-- One workspace, and what is left of its artifact. -/
def tornFiles : FileTree where
  entries := (soleFiles "\x7b\"name\":\"a\"\x7d").entries ++ [(["p", "a", ".ts"], .directory),
    (["p", "a", ".ts", "tsconfig.tsbuildinfo"], .file (.text "\x7b".toList))]

/-- An artifact that was gone comes back torn: it counts as one that is there, and that is all. -/
theorem torn_artifact_changes_nothing :
    ∃ state, Visited ⟨"/p"⟩ {} state ∧ state.1.registry.isReady "a" = true
      ∧ state.1.registry.missingArtifacts = [Workspace.artifactPath "a"]
      ∧ Completes Disk.alone
        (dispatch ⟨"/p"⟩ {} { change := .create, path := "/p/a/.ts/tsconfig.tsbuildinfo" }) state
        fun after => after.1.registry = { state.1.registry with missingArtifacts := [] }
          ∧ after.2.files = state.2.files := by
  let disk : Disk := { project := ⟨"/p"⟩, files := soleFiles "\x7b\"name\":\"a\"\x7d" }
  let gone : Event := { change := .delete, path := "/p/a/.ts/tsconfig.tsbuildinfo" }
  obtain ⟨begun, isBegun⟩ : ∃ begun, (start ⟨"/p"⟩ {}).run Disk.alone ({}, disk) = begun := ⟨_, rfl⟩
  obtain ⟨left, isLeft⟩ : ∃ left, (dispatch ⟨"/p"⟩ {} gone).run Disk.alone begun.2 = left := ⟨_, rfl⟩
  let state : Engine × Disk := (left.2.1, { left.2.2 with files := tornFiles })
  obtain ⟨starts, ends, ready, watched, missing, torn⟩ : begun.1 = .ok () ∧ left.1 = .ok ()
      ∧ state.1.registry.isReady "a" = true
      ∧ Workspace.artifactPath "a" ∈ state.1.registry.artifacts
      ∧ state.1.registry.missingArtifacts = [Workspace.artifactPath "a"]
      ∧ (state.2.read (Workspace.artifactPath "a")).isOk = false := by
    subst isLeft isBegun
    decide +kernel
  have first := run_finishes Disk.alone (start ⟨"/p"⟩ {}) ({}, disk)
  rw [isBegun, starts] at first
  have second := run_finishes Disk.alone (dispatch ⟨"/p"⟩ {} gone) begun.2
  rw [isLeft, ends] at second
  have visited : Visited ⟨"/p"⟩ {} state :=
    .edited (.dispatched (.started disk rfl first) gone second) tornFiles
  have unusable : ¬state.2.HoldsArtifact (Workspace.artifactPath "a") := by
    intro holds
    rw [holds.isOk] at torn
    cases torn
  have own : (Project.mk "/p").relative "/p/a/.ts/tsconfig.tsbuildinfo"
      = (Project.mk "/p").relative (Workspace.artifactPath "a") := by
    decide +kernel
  let back : Event := { change := .create, path := "/p/a/.ts/tsconfig.tsbuildinfo" }
  have present : back.change ≠ .delete := by decide
  have changes := unusable_artifacts_change_nothing ⟨"/p"⟩ {} visited watched (fun _ => unusable)
    present own
  have completes := changes.1 (by decide +kernel)
  refine ⟨state, visited, ready, missing, completes.1, fun result after finishes => ?_⟩
  obtain ⟨ok, noticed⟩ := completes.2 result after finishes
  refine ⟨ok, noticed.registry.trans ?_, noticed.files⟩
  have here : (Project.mk "/p").relative back.path = Workspace.artifactPath "a" := by decide +kernel
  have gone : TextSet.remove [Workspace.artifactPath "a"] (Workspace.artifactPath "a") = [] := by
    decide +kernel
  rw [here, Watch.noticed, if_pos rfl, Registry.unmarkMissing, missing, gone]

/-- With so many attempts the pause before one of the last would be too long for a double. -/
def persistent : SyncOptions where
  artifactAttempts := 1600

/-- An artifact that is not there lets an update of it fail, if it is tried that often. -/
theorem persistent_reading_raises :
    ∃ state, Visited ⟨"/p"⟩ persistent state
      ∧ Workspace.artifactPath "a" ∈ state.1.registry.artifacts
      ∧ ¬state.2.HoldsArtifact (Workspace.artifactPath "a")
      ∧ ∃ after, Finishes Disk.alone
        (dispatch ⟨"/p"⟩ persistent { change := .update, path := "/p/a/.ts/tsconfig.tsbuildinfo" }) state
        (.error [.endlessPause]) after := by
  let disk : Disk := { project := ⟨"/p"⟩, files := soleFiles "\x7b\"name\":\"a\"\x7d" }
  obtain ⟨begun, isBegun⟩ : ∃ begun, (start ⟨"/p"⟩ persistent).run Disk.alone ({}, disk) = begun :=
    ⟨_, rfl⟩
  obtain ⟨starts, ready, watched, missing⟩ : begun.1 = .ok ()
      ∧ begun.2.1.registry.isReady (Workspace.ofArtifact (Workspace.artifactPath "a")) = true
      ∧ Workspace.artifactPath "a" ∈ begun.2.1.registry.artifacts
      ∧ (begun.2.2.read (Workspace.artifactPath "a")).isOk = false := by
    subst isBegun
    decide +kernel
  have first := run_finishes Disk.alone (start ⟨"/p"⟩ persistent) ({}, disk)
  rw [isBegun, starts] at first
  have visited : Visited ⟨"/p"⟩ persistent begun.2 := .started disk rfl first
  have unusable : ¬begun.2.2.HoldsArtifact (Workspace.artifactPath "a") := by
    intro holds
    rw [holds.isOk] at missing
    cases missing
  have endless : ¬PausesEnd persistent := by
    rw [pausesEnd_iff rfl]
    decide
  have hangs : Hangs persistent begun.2 (Workspace.artifactPath "a") := ⟨watched, ready, missing, endless⟩
  let event : Event := { change := .update, path := "/p/a/.ts/tsconfig.tsbuildinfo" }
  have present : event.change ≠ .delete := by decide
  have own : (Project.mk "/p").relative event.path = Workspace.artifactPath "a" := by decide +kernel
  have leads : Leads Disk.alone (dispatch ⟨"/p"⟩ persistent event) begun.2 _ :=
    leads_dispatch_recognized visited.orderly.1.sound watched (fun _ => unusable) present own
  have finishes := run_finishes Disk.alone (dispatch ⟨"/p"⟩ persistent event) begun.2
  rw [(leads.finishes finishes).2, if_pos hangs] at finishes
  exact ⟨begun.2, visited, watched, unusable, _, finishes⟩

end Watch
end RefSync
