/-
The checks of a workspace. A repair that goes through leaves a workspace that passes them, and
where they are passed nothing is repaired and the same is reported.
-/

import RefSync.Proofs.Config.Satisfactory
import RefSync.Proofs.Doctor.Clearing
import RefSync.Proofs.Manifest.Validity
import RefSync.Proofs.Routine.Group

namespace RefSync

open Routine Path

namespace Doctor

/-! ### Looking and writing while others do -/

/-- An ending that concedes failures. -/
def conceding {α : Type} (own : Conduct Disk) (good : α → Engine × Disk → Prop) : Ending α Disk :=
  fun result start now => own.allows start now ∧ ∀ value, result = .ok value → good value now

section

variable {α : Type} {others own : Conduct Disk} {start now : Engine × Disk} {ending : Ending α Disk}

theorem meets_look {asked : Request} {known : asked.Answer} {rest : asked.Answer → Routine α}
    (began : own.allows start now) (still : ∀ state, (Disk.alone asked state).2 = state)
    (shown : ∀ later, others.allows now later → (Disk.alone asked later).1 = known)
    (goesOn : ∀ resumes, others.allows now resumes →
      Meets Disk.alone (rest known) others own resumes resumes ending) :
    Meets Disk.alone (ask asked >>= rest) others own start now ending := by
  refine (meets_ask asked rest ending).mpr ⟨began, fun asks asking => ?_⟩
  rw [still, shown asks asking]
  exact ⟨own.refl asks, fun resumes resuming => goesOn resumes (others.trans asking resuming)⟩

theorem meets_present? {path : String} {known : Except Fault (Option Document)}
    {rest : Option Document → Routine α} (began : own.allows start now)
    (shown : ∀ later, others.allows now later → presented path (later.2.read path) = known)
    (goesOn : ∀ found, known = .ok found → ∀ resumes, others.allows now resumes →
      Meets Disk.alone (rest found) others own resumes resumes ending)
    (fails : ∀ fault, known = .error fault → ∀ resumes, ending (.error [fault]) resumes resumes) :
    Meets Disk.alone (present? path >>= rest) others own start now ending := by
  rw [present?_eq]
  refine ⟨began, fun asks asking => ⟨own.refl asks, fun resumes resuming => ?_⟩⟩
  change Meets Disk.alone (ofExcept id (presented path (asks.2.read path)) >>= rest) _ _ _ _ _
  rw [shown asks asking]
  cases known with
  | ok found => exact goesOn found rfl resumes (others.trans asking resuming)
  | error fault => exact fails fault rfl resumes

theorem meets_found {path : String} {document : Document} {rest : Option Document → Routine α}
    (began : own.allows start now)
    (reads : ∀ later, others.allows now later → later.2.read path = .ok (.obj document))
    (goesOn : ∀ resumes, others.allows now resumes →
      Meets Disk.alone (rest (some document)) others own resumes resumes ending) :
    Meets Disk.alone (readObject? path >>= rest) others own start now ending := by
  refine ⟨began, fun asks asking => ⟨own.refl asks, fun resumes resuming => ?_⟩⟩
  have given : (Disk.alone (.read path) asks).1 = .ok (.obj document) := reads asks asking
  rw [given]
  exact goesOn resumes (others.trans asking resuming)

theorem meets_put {path : String} {document : Document} {rest : Unit → Routine α}
    (began : own.allows start now)
    (keeps : ∀ asks, others.allows now asks →
      own.allows asks (asks.1, (asks.2.write path document).2))
    (goesOn : ∀ asks resumes, others.allows now asks → (asks.2.write path document).1 = .ok () →
      others.allows (asks.1, (asks.2.write path document).2) resumes →
      Meets Disk.alone (rest ()) others own resumes resumes ending)
    (fails : ∀ fault resumes, ending (.error [fault]) resumes resumes) :
    Meets Disk.alone (writeDocument path document >>= rest) others own start now ending := by
  refine (meets_ask (.write path document) _ _).mpr ⟨began, fun asks asking => ?_⟩
  have kept := keeps asks asking
  have done := goesOn asks
  rw [Disk.alone_write]
  generalize asks.2.write path document = made at kept done ⊢
  refine ⟨kept, fun resumes resuming => ?_⟩
  obtain ⟨result, after⟩ := made
  cases result with
  | error fault => exact fails (.write fault) resumes
  | ok value => exact done resumes asking rfl resuming

end

/-! ### Workspaces that pass -/

/-- Whether a config is as it has to be, where there are sources, and what is reported of it. -/
def IsConfigured (sources : List (List String)) (config : Option Document) (hasConfig : Bool) : Prop :=
  if sources.isEmpty then hasConfig = config.isSome
  else hasConfig = true ∧ ∃ present, config = some present
    ∧ Config.isSatisfactory (present.get? "compilerOptions") = true

theorem IsConfigured.unique {sources : List (List String)} {config : Option Document}
    {hasConfig other : Bool} (configured : IsConfigured sources config hasConfig)
    (otherConfigured : IsConfigured sources config other) : hasConfig = other := by
  unfold IsConfigured at configured otherConfigured
  split at configured
  · rename_i empty
    rw [if_pos empty] at otherConfigured
    rw [configured, otherConfigured]
  · rename_i sourced
    rw [if_neg sourced] at otherConfigured
    rw [configured.1, otherConfigured.1]

/-- What passes the checks of a workspace, with what is reported of it: an empty one, or one with a
name whose config is as it has to be where there are sources. -/
inductive Passes (workspace : String) : Option Document → Option Document → List (List String) →
    Bool → WorkspaceReport → Prop where
  | empty : Passes workspace none none [] false { path := workspace, redundant := true }
  | named {document : Document} {manifest : Manifest} {config : Option Document}
      {sources : List (List String)} {name : String} {hasConfig : Bool} {checks : List Check}
      (valid : Manifest.validate (.obj document) = .ok manifest) (named : manifest.name = some name)
      (configured : IsConfigured sources config hasConfig) :
      Passes workspace (some document) config sources true
        { path := workspace, name := some name, hasConfig, checks }

/-- Whether a workspace passes its checks with a report. -/
def Sound (workspace : String) (report : WorkspaceReport) (disk : Disk) : Prop :=
  ∃ raw config sources filled, Shows workspace raw config sources filled disk
    ∧ Passes workspace raw config sources filled report

/-- What a workspace's manifest holds, whatever is wrong with it. -/
def heldManifest (disk : Disk) (workspace : String) : Document :=
  match disk.read (Workspace.manifestPath workspace) with
  | .ok (.obj document) => document
  | _ => []

/-- Whether a manifest lacks a name at most, and gets one that is no blank text. -/
structure Mendable (workspace : String) (document : Document) : Prop where
  fields : ∃ manifest, Manifest.validate (.obj (document.erase "name")) = .ok manifest
  named : isBlankText (keptName workspace document) = false

theorem heldManifest_eq {disk : Disk} {workspace : String} {raw : Option Document}
    (shown : presented (Workspace.manifestPath workspace)
      (disk.read (Workspace.manifestPath workspace)) = .ok raw) :
    heldManifest disk workspace = raw.getD [] := by
  cases raw with
  | some document =>
      have reads := presented_eq_some.mp shown
      unfold heldManifest
      rw [reads]
      rfl
  | none =>
      unfold heldManifest
      split
      · rename_i document reads
        have present := shown.symm.trans (presented_eq_some.mpr reads)
        cases present
      · rfl

/-- A valid manifest without a name is given that of its directory. -/
theorem keptName_unnamed {workspace : String} {document : Document} {manifest : Manifest}
    (valid : Manifest.validate (.obj document) = .ok manifest) (unnamed : manifest.name = none) :
    keptName workspace document = generatedName workspace := by
  have checked := (Manifest.validate_eq_ok_iff.mp valid).1
  rw [unnamed] at checked
  unfold keptName
  split
  · rename_i name held
    rw [held] at checked
    split
    · rfl
    · rename_i filled
      rw [Manifest.checkName, if_neg filled] at checked
      cases checked
  · rfl

theorem Shows.filled_of_seen {workspace : String} {raw config : Option Document}
    {sources : List (List String)} {filled : Bool} {disk : Disk}
    (below : IsBelow disk.project workspace)
    (shows_ : Shows workspace raw config sources filled disk)
    (seen : (config.isNone && sources.isEmpty && raw.isNone) = false) : filled = true := by
  rw [← shows_.filled]
  cases raw with
  | some document =>
      exact Disk.hasFiles_of_readable below.manifest
        (Disk.readable_of_read (presented_eq_some.mp shows_.manifest))
  | none =>
      cases config with
      | some document =>
          exact Disk.hasFiles_of_readable below.config
            (Disk.readable_of_read (presented_eq_some.mp shows_.config))
      | none =>
          have some : disk.sources workspace ≠ [] := by
            rw [shows_.sources]
            simpa using seen
          obtain ⟨source, member⟩ := List.exists_mem_of_ne_nil _ some
          have inFiles := (List.mem_filter.mp ((sortBy_perm _).mem_iff.mp member)).1
          rw [Disk.hasFiles, Bool.not_eq_true', List.isEmpty_eq_false_iff_exists_mem]
          exact ⟨source, inFiles⟩

/-! ### Repairs -/

/-- What a repair makes of a manifest, and the name that it goes by: a valid one with a name is as it
was, any other one is given a name and stored anew. -/
inductive Repaired (workspace : String) (held : Document) (disk : Disk) : Document → String → Prop where
  | kept {document : Document} {manifest : Manifest} {name : String}
      (valid : Manifest.validate (.obj document) = .ok manifest) (named : manifest.name = some name) :
      Repaired workspace held disk document name
  | written (stores : disk.files.get? (disk.project.resolved (Workspace.manifestPath workspace))
      = some (.file (.text (Json.obj (held.set "name" (.str (keptName workspace held)))).contents))) :
      Repaired workspace held disk (held.set "name" (.str (keptName workspace held)))
        (keptName workspace held)

/-- A manifest that lacks a name at most is valid afterwards. -/
theorem Repaired.valid {workspace name : String} {held document : Document} {disk : Disk}
    (repaired : Repaired workspace held disk document name) (mendable : Mendable workspace held) :
    ∃ manifest, Manifest.validate (.obj document) = .ok manifest ∧ manifest.name = some name := by
  cases repaired with
  | kept valid named => exact ⟨_, valid, named⟩
  | written stores =>
      obtain ⟨fields, valid⟩ := mendable.fields
      exact Manifest.validate_named valid mendable.named

theorem Repaired.later {workspace name : String} {held document : Document} {disk after : Disk}
    (repaired : Repaired workspace held disk document name) (same : after.project = disk.project)
    (stored : ∀ content, disk.files.get? (disk.project.resolved (Workspace.manifestPath workspace))
        = some (.file content) →
      after.files.get? (disk.project.resolved (Workspace.manifestPath workspace)) = some (.file content)) :
    Repaired workspace held after document name := by
  cases repaired with
  | kept valid named => exact .kept valid named
  | written stores =>
      refine .written ?_
      rw [same]
      exact stored _ stores

/-- What there is of a workspace whose manifest is repaired. -/
structure Settles (workspace : String) (held document : Document) (name : String)
    (config : Option Document) (sources : List (List String)) (disk : Disk) : Prop where
  shows_ : Shows workspace (some document) config sources true disk
  repaired : Repaired workspace held disk document name

namespace Settles

variable {workspace name : String} {held document : Document} {config : Option Document}
  {sources : List (List String)} {disk after : Disk}
  (settles : Settles workspace held document name config sources disk)

include settles

theorem later (leaves : Leaves workspace disk after) :
    Settles workspace held document name config sources after :=
  ⟨leaves.shows_ settles.shows_, settles.repaired.later leaves.same fun content =>
    leaves.stored content settles.shows_.filled⟩

theorem config_written (below : IsBelow disk.project workspace) {updated : Document}
    (clean : Document.Clean updated)
    (written : (disk.write (Workspace.configPath workspace) updated).1 = .ok ()) :
    Settles workspace held document name (some updated) sources
      (disk.write (Workspace.configPath workspace) updated).2 := by
  have mends := mends_write below.config settles.shows_.filled (by decide +kernel) updated
  refine ⟨settles.shows_.config_written below clean written, settles.repaired.later mends.same ?_⟩
  intro content found
  rw [mends.gains.apart below.configApart]
  exact found

end Settles

/-- Whether nothing is left of a workspace but documents of others that came to be in its place. -/
def Vacated (found : List String) (workspace : String) (disk : Disk) : Prop :=
  ∀ place, disk.project.resolved workspace <+: place → disk.files.get? place = none
    ∨ IsDocument disk.project found place ∧ ∃ content, disk.files.get? place = some (.file content)

theorem Vacated.later {gone found : List String} {workspace : String} {disk after : Disk}
    (vacated : Vacated found workspace disk) (clears : Clears gone found disk after) :
    Vacated found workspace after := by
  intro place within
  rw [clears.same] at within ⊢
  rcases clears.files place with same | cleared | ⟨mine, _, held⟩
  · rw [same]
    exact vacated place within
  · exact Or.inl cleared.2
  · exact Or.inr ⟨mine, held⟩

/-- How a run that fixes things leaves a workspace, and what it reports of it. -/
inductive Tidied (found : List String) (delete : Bool) (workspace : String) (held : Document)
    (wasFilled : Bool) (disk : Disk) : WorkspaceReport → Prop where
  | removed {checks : List Check} (allowed : delete = true) (unfilled : wasFilled = false)
      (vacated : Vacated found workspace disk) :
      Tidied found delete workspace held wasFilled disk { path := workspace, removed := true, checks }
  | empty (forbidden : delete = false) (unfilled : wasFilled = false)
      (shows_ : Shows workspace none none [] false disk) :
      Tidied found delete workspace held wasFilled disk { path := workspace, redundant := true }
  | mended {document : Document} {config : Option Document} {sources : List (List String)}
      {name : String} {hasConfig : Bool} {checks : List Check} (filled : wasFilled = true)
      (settles : Settles workspace held document name config sources disk)
      (configured : IsConfigured sources config hasConfig) :
      Tidied found delete workspace held wasFilled disk
        { path := workspace, name := some name, hasConfig, checks }

section

variable {origin : Disk} {gone found : List String} {workspace : String}

/-- What a repair of a workspace may expect of others: they leave that workspace as it is. -/
abbrev mendingOthers (origin : Disk) (gone found : List String) (workspace : String) : Conduct Disk :=
  mending origin gone found (· = workspace)

/-- What a repair of a workspace may do: it leaves the other ones as they are. -/
abbrev mendingOwn (origin : Disk) (gone found : List String) (workspace : String) : Conduct Disk :=
  mending origin gone found fun other => other ∈ found ∧ other ≠ workspace

/-- What is true of a workspace goes on to be while others are repaired. -/
theorem Tidied.later {delete wasFilled : Bool} {held : Document} {report : WorkspaceReport}
    {disk after : Disk} (tidied : Tidied found delete workspace held wasFilled disk report)
    (clears : Clears gone found disk after) (leaves : Leaves workspace disk after) :
    Tidied found delete workspace held wasFilled after report := by
  cases tidied with
  | removed allowed unfilled vacated => exact .removed allowed unfilled (vacated.later clears)
  | empty forbidden unfilled shows_ => exact .empty forbidden unfilled (leaves.shows_ shows_)
  | mended filled settles configured => exact .mended filled (settles.later leaves) configured

variable (below : ∀ workspace ∈ found, IsBelow origin.project workspace) (member : workspace ∈ found)
  {raw config : Option Document} {sources : List (List String)} {filled : Bool}
  {start now : Engine × Disk} (reached : Clears gone found origin now.2)

include reached in
theorem resumed {later : Engine × Disk}
    (allowed : (mendingOthers origin gone found workspace).allows now later) :
    Clears gone found origin later.2 ∧ Leaves workspace now.2 later.2 := by
  obtain ⟨clears, leaves⟩ := allowed reached
  exact ⟨reached.trans clears, leaves workspace rfl⟩

include below member

/-- To write a document of one's own is allowed. -/
theorem mends_own {state after : Engine × Disk}
    (mends : Mends (IsDocumentOf state.2.project workspace) state.2 after.2) :
    (mendingOwn origin gone found workspace).allows state after := by
  intro clears
  refine ⟨mends.clears fun place mine => Or.inr ⟨workspace, member, mine⟩, ?_⟩
  rintro other ⟨otherMember, differs⟩
  rw [← clears.same] at below
  refine mends.leaves (below other otherMember) fun place document mine => ?_
  exact (below other otherMember).apart (below workspace member) differs document mine

include reached

attribute [local irreducible] Disk.write

/-- A manifest is written, or the repair ends. -/
theorem meets_writeName {α : Type} {document : Document} (clean : Document.Clean document)
    (name : String) (began : (mendingOwn origin gone found workspace).allows start now)
    (shows_ : Shows workspace raw config sources true now.2) {rest : Unit → Routine α}
    {ending : Ending α Disk}
    (goesOn : ∀ resumes, Clears gone found origin resumes.2 →
      Shows workspace (some (document.set "name" (.str name))) config sources true resumes.2 →
      resumes.2.files.get? (resumes.2.project.resolved (Workspace.manifestPath workspace))
        = some (.file (.text (Json.obj (document.set "name" (.str name))).contents)) →
      Meets Disk.alone (rest ()) (mendingOthers origin gone found workspace)
        (mendingOwn origin gone found workspace) resumes resumes ending)
    (fails : ∀ fault resumes, ending (.error [fault]) resumes resumes) :
    Meets Disk.alone (writeName workspace document name >>= rest)
      (mendingOthers origin gone found workspace) (mendingOwn origin gone found workspace) start now
      ending := by
  have cleanNamed : Document.Clean (document.set "name" (.str name)) := clean.set "name" (.str name)
  have writes (asks : Engine × Disk) (asking : (mendingOthers origin gone found workspace).allows now asks) :
      Mends (IsDocumentOf asks.2.project workspace) asks.2
        (asks.2.write (Workspace.manifestPath workspace) (document.set "name" (.str name))).2 := by
    obtain ⟨clears, leaves⟩ := resumed reached asking
    rw [← clears.same] at below
    exact (mends_write (below workspace member).manifest (leaves.shows_ shows_).filled
      (by decide +kernel) _).weaken fun place mine => Or.inl mine
  refine meets_put began (fun asks asking => mends_own below member (writes asks asking))
    (fun asks resumes asking written resuming => ?_) fails
  obtain ⟨clears, leaves⟩ := resumed reached asking
  have belowThen : IsBelow asks.2.project workspace := clears.same ▸ below workspace member
  have showsThen := (leaves.shows_ shows_).manifest_written belowThen cleanNamed written
  have holds := Disk.holds_written (Workspace.last_manifestPath workspace) (by decide) written
  have clearsThen := clears.trans ((writes asks asking).clears fun place mine =>
    Or.inr ⟨workspace, member, mine⟩)
  obtain ⟨clearsAfter, leavesAfter⟩ := resumed clearsThen resuming
  refine goesOn resumes clearsAfter (leavesAfter.shows_ showsThen) ?_
  rw [leavesAfter.same]
  exact leavesAfter.stored _ showsThen.filled holds.found

theorem meets_mendManifest (began : (mendingOwn origin gone found workspace).allows start now)
    (shows_ : Shows workspace raw config sources true now.2) :
    Meets Disk.alone (checkManifest true workspace raw) (mendingOthers origin gone found workspace)
      (mendingOwn origin gone found workspace) start now
      (conceding (mendingOwn origin gone found workspace) fun named state =>
        Clears gone found origin state.2 ∧ ∃ document name, named.name = some name
          ∧ Settles workspace (raw.getD []) document name config sources state.2) := by
  have clean : Document.Clean (raw.getD []) := by
    cases raw with
    | none => exact Document.clean_empty
    | some document =>
        exact Document.clean_obj.mp (Disk.clean_of_read (presented_eq_some.mp shows_.manifest))
  have writes (checks : List Check) : Meets Disk.alone
      (writeName workspace (raw.getD []) (keptName workspace (raw.getD [])) >>= fun _ =>
        pure (Named.mk (some (keptName workspace (raw.getD []))) checks))
      (mendingOthers origin gone found workspace) (mendingOwn origin gone found workspace) start now
      (conceding (mendingOwn origin gone found workspace) fun named state =>
        Clears gone found origin state.2 ∧ ∃ document name, named.name = some name
          ∧ Settles workspace (raw.getD []) document name config sources state.2) := by
    refine meets_writeName below member reached clean _ began shows_
      (fun resumes clears showsThen stores => ?_)
      fun fault resumes => ⟨(mendingOwn origin gone found workspace).refl resumes, nofun⟩
    refine ⟨(mendingOwn origin gone found workspace).refl resumes, ?_⟩
    rintro _ ⟨rfl⟩
    exact ⟨clears, _, _, rfl, showsThen, .written stores⟩
  unfold checkManifest
  cases raw with
  | none => exact writes _
  | some document =>
      dsimp only [Option.bind_some]
      cases validated : Manifest.validate (.obj document) with
      | error rejection => exact writes _
      | ok present =>
          dsimp only [Except.toOption]
          cases known : present.name with
          | some name =>
              refine ⟨began, ?_⟩
              rintro _ ⟨rfl⟩
              exact ⟨reached, document, name, rfl, shows_, .kept validated known⟩
          | none =>
              have given : keptName workspace document = generatedName workspace :=
                keptName_unnamed validated known
              rw [Option.getD_some, given] at writes
              exact writes _

section

variable {held document : Document} {name : String}

/-- A config is written, or the repair ends. -/
theorem meets_writeConfig {α : Type} {updated : Document} (clean : Document.Clean updated)
    (began : (mendingOwn origin gone found workspace).allows start now)
    (settles : Settles workspace held document name config sources now.2) {rest : Unit → Routine α}
    {ending : Ending α Disk}
    (goesOn : ∀ resumes, Clears gone found origin resumes.2 →
      Settles workspace held document name (some updated) sources resumes.2 →
      Meets Disk.alone (rest ()) (mendingOthers origin gone found workspace)
        (mendingOwn origin gone found workspace) resumes resumes ending)
    (fails : ∀ fault resumes, ending (.error [fault]) resumes resumes) :
    Meets Disk.alone (writeDocument (Workspace.configPath workspace) updated >>= rest)
      (mendingOthers origin gone found workspace) (mendingOwn origin gone found workspace) start now
      ending := by
  have writes (asks : Engine × Disk) (asking : (mendingOthers origin gone found workspace).allows now asks) :
      Mends (IsDocumentOf asks.2.project workspace) asks.2
        (asks.2.write (Workspace.configPath workspace) updated).2 := by
    obtain ⟨clears, leaves⟩ := resumed reached asking
    rw [← clears.same] at below
    exact (mends_write (below workspace member).config (settles.later leaves).shows_.filled
      (by decide +kernel) _).weaken fun place mine => Or.inr mine
  refine meets_put began (fun asks asking => mends_own below member (writes asks asking))
    (fun asks resumes asking written resuming => ?_) fails
  obtain ⟨clears, leaves⟩ := resumed reached asking
  have belowThen : IsBelow asks.2.project workspace := clears.same ▸ below workspace member
  have settlesThen := (settles.later leaves).config_written belowThen clean written
  have clearsThen := clears.trans ((writes asks asking).clears fun place mine =>
    Or.inr ⟨workspace, member, mine⟩)
  obtain ⟨clearsAfter, leavesAfter⟩ := resumed clearsThen resuming
  exact goesOn resumes clearsAfter (settlesThen.later leavesAfter)

/-- A config that is not satisfactory is made so. -/
theorem meets_mendConfigure {present : Document}
    (began : (mendingOwn origin gone found workspace).allows start now)
    (settles : Settles workspace held document name (some present) sources now.2) :
    Meets Disk.alone (Update.configure workspace true) (mendingOthers origin gone found workspace)
      (mendingOwn origin gone found workspace) start now
      (conceding (mendingOwn origin gone found workspace) fun _ state => Clears gone found origin state.2
        ∧ ∃ later, Settles workspace held document name (some later) sources state.2
          ∧ Config.isSatisfactory (later.get? "compilerOptions") = true) := by
  have clean : Document.Clean present :=
    Document.clean_obj.mp (Disk.clean_of_read (presented_eq_some.mp settles.shows_.config))
  unfold Update.configure
  refine (meets_ask (.hasJsx workspace) _ _).mpr ⟨began, fun asks asking => ?_⟩
  refine ⟨(mendingOwn origin gone found workspace).refl asks, fun resumes resuming => ?_⟩
  obtain ⟨clears, leaves⟩ :=
    resumed reached ((mendingOthers origin gone found workspace).trans asking resuming)
  cases looked : (Disk.alone (.hasJsx workspace) asks).1 with
  | error fault => exact ⟨(mendingOwn origin gone found workspace).refl resumes, nofun⟩
  | ok jsx =>
      have settlesThen := settles.later leaves
      have reads : ∀ later, (mendingOthers origin gone found workspace).allows resumes later →
          later.2.read (Workspace.configPath workspace) = .ok (.obj present) :=
        fun later reading => presented_eq_some.mp
          (settlesThen.later (resumed clears reading).2).shows_.config
      refine meets_found ((mendingOwn origin gone found workspace).refl resumes) reads
        fun again reading => ?_
      obtain ⟨clearsAgain, leavesAgain⟩ := resumed clears reading
      have settlesAgain := settlesThen.later leavesAgain
      have satisfactory := Config.satisfactory_configure clean jsx true
      dsimp only
      cases update : Config.configure? present jsx true with
      | none =>
          rw [update] at satisfactory
          refine ⟨(mendingOwn origin gone found workspace).refl again, ?_⟩
          rintro _ ⟨rfl⟩
          exact ⟨clearsAgain, present, settlesAgain, satisfactory⟩
      | some updated =>
          have cleanUpdated : Document.Clean updated := (Config.revises_configure update).clean clean
          rw [update] at satisfactory
          refine meets_writeConfig below member clearsAgain cleanUpdated
            ((mendingOwn origin gone found workspace).refl again) settlesAgain
            (fun after clearsAfter settlesAfter => ?_)
            fun fault after => ⟨(mendingOwn origin gone found workspace).refl after, nofun⟩
          refine ⟨(mendingOwn origin gone found workspace).refl after, ?_⟩
          rintro _ ⟨rfl⟩
          exact ⟨clearsAfter, updated, settlesAfter, satisfactory⟩

theorem meets_mendConfig (began : (mendingOwn origin gone found workspace).allows start now)
    (settles : Settles workspace held document name config sources now.2) :
    Meets Disk.alone (checkConfig true workspace sources config)
      (mendingOthers origin gone found workspace) (mendingOwn origin gone found workspace) start now
      (conceding (mendingOwn origin gone found workspace) fun checked state =>
        Clears gone found origin state.2
        ∧ ∃ later, Settles workspace held document name later sources state.2
          ∧ IsConfigured sources later checked.1) := by
  unfold checkConfig
  split
  · rename_i empty
    refine ⟨began, ?_⟩
    rintro _ ⟨rfl⟩
    refine ⟨reached, config, settles, ?_⟩
    rw [IsConfigured, if_pos empty]
  · rename_i sourced
    cases config with
    | none =>
        refine meets_writeConfig below member reached (Config.clean_newWorkspace _) began settles
          (fun resumes clears settlesThen => ?_)
          fun fault resumes => ⟨(mendingOwn origin gone found workspace).refl resumes, nofun⟩
        refine ⟨(mendingOwn origin gone found workspace).refl resumes, ?_⟩
        rintro _ ⟨rfl⟩
        refine ⟨clears, _, settlesThen, ?_⟩
        rw [IsConfigured, if_neg sourced]
        exact ⟨rfl, _, rfl, Config.satisfactory_newWorkspace _⟩
    | some present =>
        dsimp only
        split
        · rename_i satisfactory
          refine ⟨began, ?_⟩
          rintro _ ⟨rfl⟩
          refine ⟨reached, _, settles, ?_⟩
          rw [IsConfigured, if_neg sourced]
          exact ⟨rfl, _, rfl, satisfactory⟩
        · refine (meets_bind _ _ _).mpr
            ((meets_mendConfigure below member reached began settles).weaken ?_)
          intro result start later ended
          cases result with
          | error failure => exact ⟨ended.1, nofun⟩
          | ok wrote =>
              obtain ⟨clears, present, settlesThen, satisfactory⟩ := ended.2 wrote rfl
              refine ⟨ended.1, ?_⟩
              rintro _ ⟨rfl⟩
              refine ⟨clears, some present, settlesThen, ?_⟩
              rw [IsConfigured, if_neg sourced]
              exact ⟨rfl, _, rfl, satisfactory⟩

end

/-- How the check of a workspace ends: well, or with a failure. -/
abbrev tidies (origin : Disk) (gone found : List String) (delete : Bool) (workspace : String)
    (held : Document) (wasFilled : Bool) : Ending WorkspaceReport Disk :=
  lasting (mendingOthers origin gone found workspace) (mendingOwn origin gone found workspace)
    (endsWith (fun report state => Clears gone found origin state.2
      ∧ Tidied found delete workspace held wasFilled state.2 report) True fun _ => True)

omit below member reached in
theorem tidies_failed {delete wasFilled : Bool} {held : Document} {failure : Failure}
    (kept : (mendingOwn origin gone found workspace).allows start now) :
    tidies origin gone found delete workspace held wasFilled (.error failure) start now :=
  ⟨kept, fun _ _ => ⟨trivial, fun _ _ => trivial⟩⟩

omit below member in
theorem tidies_ended {delete wasFilled : Bool} {held : Document} {report : WorkspaceReport}
    (kept : (mendingOwn origin gone found workspace).allows start now)
    (tidied : Tidied found delete workspace held wasFilled now.2 report) :
    tidies origin gone found delete workspace held wasFilled (.ok report) start now := by
  refine ⟨kept, fun later resuming => ?_⟩
  obtain ⟨clears, leaves⟩ := resumed reached resuming
  exact ⟨clears, tidied.later (resuming reached).1 leaves⟩

/-- A workspace that has files ends with a name and, where there are sources, with its config. -/
theorem meets_mendFilled (delete : Bool) (shows_ : Shows workspace raw config sources true now.2) :
    Meets Disk.alone (do
        let named ← checkManifest true workspace raw
        let (hasConfig, check) ← checkConfig true workspace sources config
        return { path := workspace, name := named.name, hasConfig, checks := named.checks ++ [check] })
      (mendingOthers origin gone found workspace) (mendingOwn origin gone found workspace) now now
      (tidies origin gone found delete workspace (raw.getD []) true) := by
  refine (meets_bind _ _ _).mpr ((meets_mendManifest below member reached
    ((mendingOwn origin gone found workspace).refl now) shows_).weaken ?_)
  intro result start later ended
  cases result with
  | error failure => exact tidies_failed ended.1
  | ok named =>
      obtain ⟨clears, document, name, nameIs, settles⟩ := ended.2 named rfl
      refine (meets_bind _ _ _).mpr
        ((meets_mendConfig below member clears ended.1 settles).weaken ?_)
      intro result start after ended
      cases result with
      | error failure => exact tidies_failed ended.1
      | ok checked =>
          obtain ⟨clearsAfter, present, settlesAfter, configured⟩ := ended.2 checked rfl
          refine tidies_ended clearsAfter ended.1 ?_
          rw [nameIs]
          exact .mended rfl settlesAfter configured

/-- A workspace without files is removed where that is allowed. -/
theorem meets_clearEmpty {delete : Bool} {held : Document} (unfilled : origin.hasFiles workspace = false)
    (removable : delete = true → Removable gone found origin)
    (shows_ : Shows workspace none none [] false now.2) :
    Meets Disk.alone (checkEmpty { fix := true, delete } workspace)
      (mendingOthers origin gone found workspace) (mendingOwn origin gone found workspace) now now
      (tidies origin gone found delete workspace held false) := by
  have began := (mendingOwn origin gone found workspace).refl now
  cases delete with
  | false => exact tidies_ended reached began (.empty rfl rfl shows_)
  | true =>
      obtain ⟨distinct, members, outside, enters⟩ := removable rfl
      have goes := members workspace member unfilled
      refine (meets_ask (.removeDirectory workspace) _ _).mpr ⟨began, fun asks asking => ?_⟩
      obtain ⟨clears, leaves⟩ := resumed reached asking
      rcases asks.2.removeDirectory_cases workspace with ⟨fault, refused⟩ | ⟨entered, removed⟩
      · have answered : Disk.alone (.removeDirectory workspace) asks = (.error fault, asks) := by
          rw [Disk.alone_eq, Disk.answer, refused]
        rw [answered]
        exact ⟨(mendingOwn origin gone found workspace).refl asks, fun resumes _ =>
          tidies_failed ((mendingOwn origin gone found workspace).refl resumes)⟩
      · have answered : Disk.alone (.removeDirectory workspace) asks
            = (.ok (), asks.1, (asks.2.removeDirectory workspace).2) := by
          rw [Disk.alone_eq, Disk.answer, removed]
        have removes : Disk.Removes workspace asks.2 (asks.2.removeDirectory workspace).2 := by
          rw [removed]
          refine ⟨rfl, ?_, entered, (leaves.shows_ shows_).filled, rfl⟩
          rw [clears.same]
          exact outside workspace goes
        have clearing : Clears gone found asks.2 (asks.2.removeDirectory workspace).2 :=
          clears_removed removes goes
        rw [answered]
        generalize (asks.2.removeDirectory workspace).2 = after at removes clearing
        refine ⟨fun _ => ⟨clearing, ?_⟩, fun resumes resuming => ?_⟩
        · rintro other ⟨otherMember, _⟩
          rw [← clears.same] at below
          refine leaves_removed (below other otherMember) removes (clears.distinct distinct) fun filled => ?_
          exact (clears.trans clearing).enters (enters other otherMember (clears.filled other filled))
        · have reachedThen := clears.trans clearing
          have vacated : Vacated found workspace after := by
            intro place within
            rw [removes.same] at within
            exact Or.inl (removes.get?_within within)
          refine tidies_ended (resumed reachedThen resuming).1
            ((mendingOwn origin gone found workspace).refl resumes) ?_
          exact .removed rfl rfl (vacated.later (resuming reachedThen).1)

/-- The check of a workspace, whatever is wrong with it. -/
theorem meets_mendWorkspace {delete : Bool} (begun : Leaves workspace origin now.2)
    (removable : delete = true → Removable gone found origin) :
    Meets Disk.alone (checkWorkspace { fix := true, delete } workspace)
      (mendingOthers origin gone found workspace) (mendingOwn origin gone found workspace) now now
      (tidies origin gone found delete workspace (heldManifest origin workspace)
        (origin.hasFiles workspace)) := by
  have ownRefl := (mendingOwn origin gone found workspace).refl
  unfold checkWorkspace
  refine meets_present? (ownRefl now) (fun later later_ => (resumed reached later_).2.manifest)
    (fun raw manifestNow first toFirst => ?_) fun fault _ resumes => tidies_failed (ownRefl resumes)
  obtain ⟨clearsFirst, leavesFirst⟩ := resumed reached toFirst
  refine meets_present? (ownRefl first) (fun later later_ => (resumed clearsFirst later_).2.config)
    (fun config configFirst second toSecond => ?_) fun fault _ resumes => tidies_failed (ownRefl resumes)
  obtain ⟨clearsSecond, leavesSecond⟩ := resumed clearsFirst toSecond
  have held : heldManifest origin workspace = raw.getD [] :=
    heldManifest_eq (begun.manifest.symm.trans manifestNow)
  have shows_ : Shows workspace raw config (first.2.sources workspace) (origin.hasFiles workspace)
      first.2 :=
    ⟨leavesFirst.manifest.trans manifestNow, configFirst, rfl, leavesFirst.hasFiles.trans begun.hasFiles⟩
  refine meets_look (ownRefl second) (fun _ => rfl)
    (fun later later_ => (leavesSecond.trans (resumed clearsSecond later_).2).sources)
    fun third toThird => ?_
  obtain ⟨clearsThird, leavesThird⟩ := resumed clearsSecond toThird
  have showsThird := (leavesSecond.trans leavesThird).shows_ shows_
  have filledEnd (filled : origin.hasFiles workspace = true) (state : Engine × Disk)
      (clears : Clears gone found origin state.2) (leaves : Leaves workspace third.2 state.2) :=
    meets_mendFilled below member clears delete (filled ▸ leaves.shows_ showsThird)
  rw [held]
  dsimp only
  split
  · rename_i nothing
    refine meets_look (ownRefl third) (fun _ => rfl)
      (fun later later_ => (resumed clearsThird later_).2.hasFiles) fun fourth toFourth => ?_
    obtain ⟨clearsFourth, leavesFourth⟩ := resumed clearsThird toFourth
    have filledThird := showsThird.filled
    cases filled : origin.hasFiles workspace with
    | true =>
        rw [filledThird, filled, if_neg (by decide)]
        exact filledEnd filled fourth clearsFourth leavesFourth
    | false =>
        rw [Bool.and_eq_true, Bool.and_eq_true, Option.isNone_iff_eq_none, Option.isNone_iff_eq_none,
          List.isEmpty_iff] at nothing
        obtain ⟨⟨rfl, noSources⟩, rfl⟩ := nothing
        rw [noSources, filled] at showsThird
        rw [filledThird, filled, if_pos (by decide)]
        exact meets_clearEmpty below member clearsFourth filled removable (leavesFourth.shows_ showsThird)
  · rename_i seen
    have belowThird : IsBelow third.2.project workspace := clearsThird.same ▸ below workspace member
    have filled := showsThird.filled_of_seen belowThird ((Bool.not_eq_true _).mp seen)
    rw [filled]
    exact filledEnd filled third clearsThird (.refl workspace third.2)

end

/-! ### Checks -/

/-- What a report says of a workspace to those who look at all of them. -/
def outline (report : WorkspaceReport) : String × Option String × Bool :=
  (report.path, report.name, report.hasConfig)

theorem checkManifest_passes (workspace : String) {document : Document} {manifest : Manifest}
    {name : String} (valid : Manifest.validate (.obj document) = .ok manifest)
    (named : manifest.name = some name) :
    checkManifest false workspace (some document) = pure ⟨some name, [⟨.ok, "package.json"⟩]⟩ := by
  unfold checkManifest
  dsimp only [Option.bind_some]
  rw [valid]
  dsimp only [Except.toOption]
  rw [named]
  rfl

theorem checkConfig_passes (fix : Bool) (workspace : String) {config : Option Document}
    {sources : List (List String)} {hasConfig : Bool}
    (configured : IsConfigured sources config hasConfig) :
    ∃ check, check.status ≠ .fail
      ∧ checkConfig fix workspace sources config = pure (hasConfig, check) := by
  unfold IsConfigured at configured
  unfold checkConfig
  split at configured
  · rename_i empty
    rw [if_pos empty, configured]
    refine ⟨_, ?_, rfl⟩
    nofun
  · rename_i sourced
    obtain ⟨rfl, present, rfl, satisfactory⟩ := configured
    rw [if_neg sourced]
    dsimp only
    rw [if_pos satisfactory]
    refine ⟨_, ?_, rfl⟩
    nofun

/-- A workspace that passes its checks is reported as before, and none of them fails. -/
theorem meets_checkWorkspace {workspace : String} {report : WorkspaceReport} {now : Engine × Disk}
    (sound : Sound workspace report now.2) (delete : Bool) :
    Meets Disk.alone (checkWorkspace { fix := false, delete } workspace) .none .none now now
      (lasting .none .none (endsWith (fun again _ => outline again = outline report
        ∧ anyFailed again.checks = false) False fun _ => False)) := by
  obtain ⟨raw, config, sources, filled, shows_, passes⟩ := sound
  have manifestShown (later : Engine × Disk) (reached : Conduct.none.allows now later) :
      presented (Workspace.manifestPath workspace)
        (later.2.read (Workspace.manifestPath workspace)) = .ok raw := by
    cases reached
    exact shows_.manifest
  have configShown (later : Engine × Disk) (reached : Conduct.none.allows now later) :
      presented (Workspace.configPath workspace)
        (later.2.read (Workspace.configPath workspace)) = .ok config := by
    cases reached
    exact shows_.config
  have sourcesShown (later : Engine × Disk) (reached : Conduct.none.allows now later) :
      (Disk.alone (.sources workspace) later).1 = sources := by
    cases reached
    exact shows_.sources
  have filledShown (later : Engine × Disk) (reached : Conduct.none.allows now later) :
      (Disk.alone (.hasFiles workspace) later).1 = filled := by
    cases reached
    exact shows_.filled
  unfold checkWorkspace
  refine meets_present? rfl manifestShown ?_ fun fault failed => nomatch failed
  rintro _ ⟨rfl⟩ _ ⟨rfl⟩
  refine meets_present? rfl configShown ?_ fun fault failed => nomatch failed
  rintro _ ⟨rfl⟩ _ ⟨rfl⟩
  refine meets_look rfl (fun _ => rfl) sourcesShown ?_
  rintro _ ⟨rfl⟩
  cases passes with
  | empty =>
      refine meets_look rfl (fun _ => rfl) filledShown ?_
      rintro _ ⟨rfl⟩
      exact ⟨rfl, fun _ _ => ⟨rfl, rfl⟩⟩
  | named valid named configured =>
      obtain ⟨check, passed, checks⟩ := checkConfig_passes false workspace configured
      rw [Option.isNone_some, Bool.and_false]
      dsimp only
      rw [if_neg (by decide), checkManifest_passes workspace valid named, checks]
      refine ⟨rfl, fun _ _ => ⟨rfl, ?_⟩⟩
      change (false || (check.status == .fail || false)) = false
      rw [beq_false_of_ne passed]
      rfl

/-- What is reported of a workspace that passes is a matter of what there is. -/
theorem Sound.outline_eq {workspace : String} {report other : WorkspaceReport} {disk : Disk}
    (sound : Sound workspace report disk) (otherSound : Sound workspace other disk) :
    outline report = outline other := by
  obtain ⟨raw, config, sources, filled, shows_, passes⟩ := sound
  obtain ⟨otherRaw, otherConfig, otherSources, otherFilled, otherShows, otherPasses⟩ := otherSound
  cases Except.ok.inj (shows_.manifest.symm.trans otherShows.manifest)
  cases Except.ok.inj (shows_.config.symm.trans otherShows.config)
  cases shows_.sources.symm.trans otherShows.sources
  cases passes with
  | empty =>
      cases otherPasses
      rfl
  | named valid named configured =>
      cases otherPasses with
      | named otherValid otherNamed otherConfigured =>
          cases Except.ok.inj (valid.symm.trans otherValid)
          cases Option.some.inj (named.symm.trans otherNamed)
          rw [configured.unique otherConfigured]
          rfl

end Doctor
end RefSync
