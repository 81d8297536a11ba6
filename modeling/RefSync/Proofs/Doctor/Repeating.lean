/-
Runs of the doctor one after another. A run that may not fix anything leaves the disk as it is. One
that may, and came to its end, leaves a project that another such run goes through with the same
reports: what it writes then is there already.
-/

import RefSync.Proofs.Doctor.Fixing
import RefSync.Proofs.Routine.Confining

namespace RefSync

open Routine Path

/-! ### Disks with the same files -/

namespace Disk

/-- Whether two disks hold the same files of the same project, whatever was asked of them. -/
structure Alike (before after : Disk) : Prop where
  project : after.project = before.project
  files : after.files = before.files

namespace Alike

variable {before between after : Disk}

theorem refl (disk : Disk) : Alike disk disk :=
  ⟨rfl, rfl⟩

theorem trans (first : Alike before between) (second : Alike between after) : Alike before after :=
  ⟨second.project.trans first.project, second.files.trans first.files⟩

variable (alike : Alike before after)

include alike

theorem spelled : after = { before with written := after.written, pauses := after.pauses } := by
  obtain ⟨project, files⟩ := alike
  cases before
  cases after
  cases project
  cases files
  rfl

theorem read (path : String) : after.read path = before.read path := by
  rw [alike.spelled]
  rfl

theorem sources (directory : String) : after.sources directory = before.sources directory := by
  rw [alike.spelled]
  rfl

theorem hasFiles (directory : String) : after.hasFiles directory = before.hasFiles directory := by
  rw [alike.spelled]
  rfl

end Alike

/-- A document that is stored already is stored again without a change. -/
theorem write_again {disk : Disk} {directory path name : String} {document : Document}
    (inside : disk.project.Inside directory path name) (enters : disk.Enters directory)
    (last : (parts path).getLast? = some name) (reads : disk.read path = .ok (.obj document))
    (stores : disk.files.get? (disk.project.resolved path)
      = some (.file (.text (Json.obj document).contents))) :
    (disk.write path document).1 = .ok () ∧ disk.Alike (disk.write path document).2 := by
  have accepts : disk.Accepts path (fun _ => True) :=
    accepts_of_read reads trivial last inside.named.notParent
  refine ⟨accepts.write document, disk.answer_project (.write path document), ?_⟩
  rcases write_inside inside enters document with ⟨_, same⟩ | ⟨_, _, puts⟩
  · exact same
  · rw [puts]
    exact FileTree.put_of_get? (by rw [inside.resolved]; simp) stores

end Disk

namespace Doctor

/-! ### Runs that only look -/

/-- Nothing on the disk changes. -/
def looking : Conduct Disk where
  allows before after := after.2 = before.2
  refl _ := rfl
  trans first second := second.trans first

theorem looks_ask {asked : Request} (still : ∀ disk : Disk, (disk.answer asked).2 = disk) :
    Confined Disk.alone looking (ask asked) :=
  confined_ask asked fun state => by
    rw [Disk.alone_eq]
    exact still state.2

theorem looks_present? (path : String) : Confined Disk.alone looking (present? path) := by
  rw [present?_eq]
  exact (looks_ask fun _ => rfl).bind fun _ => confined_ofExcept _ _

theorem looks_checkManifest (workspace : String) (raw : Option Document) :
    Confined Disk.alone looking (checkManifest false workspace raw) := by
  unfold checkManifest
  dsimp only
  split
  · split
    · exact confined_pure _
    · exact confined_pure _
  · exact confined_pure _
  · exact confined_pure _

theorem looks_checkConfig (workspace : String) (sources : List (List String))
    (config : Option Document) : Confined Disk.alone looking (checkConfig false workspace sources config) := by
  unfold checkConfig
  split
  · exact confined_pure _
  · split
    · exact confined_pure _
    · split
      · exact confined_pure _
      · exact confined_pure _

theorem looks_checkWorkspace (delete : Bool) (workspace : String) :
    Confined Disk.alone looking (checkWorkspace { fix := false, delete } workspace) := by
  have rest (raw config : Option Document) (sources : List (List String)) :
      Confined Disk.alone looking (do
        let named ← checkManifest false workspace raw
        let checked ← checkConfig false workspace sources config
        return ({ path := workspace, name := named.name, hasConfig := checked.1
                  checks := named.checks ++ [checked.2] } : WorkspaceReport)) :=
    (looks_checkManifest workspace raw).bind fun _ =>
      (looks_checkConfig workspace sources config).bind fun _ => confined_pure _
  unfold checkWorkspace
  refine (looks_present? _).bind fun raw => (looks_present? _).bind fun config => ?_
  refine (looks_ask fun _ => rfl).bind fun sources => ?_
  dsimp only
  split
  · refine (looks_ask fun _ => rfl).bind fun filled => ?_
    split
    · exact confined_pure _
    · exact rest raw config sources
  · exact rest raw config sources

theorem looks_checkRoot (project : Project) (workspaces : List String) :
    Confined Disk.alone looking (checkRoot project false workspaces) := by
  unfold checkRoot
  refine (looks_present? configFile).bind fun found => ?_
  cases found with
  | none => exact confined_pure _
  | some config =>
      refine (confined_ofExcept _ _).bind fun references => (confined_ofExcept _ _).bind fun sound => ?_
      cases sound with
      | true => exact confined_pure _
      | false => exact confined_pure _

theorem looks_run (project : Project) (delete : Bool) :
    Confined Disk.alone looking (run project { fix := false, delete }) := by
  unfold run checkAll
  refine (looks_ask fun _ => rfl).bind fun given => ?_
  dsimp only
  split
  · exact confined_pure _
  · split
    · exact confined_pure _
    · refine (looks_ask fun _ => rfl).bind fun discovered => (confined_ofExcept _ _).bind fun found => ?_
      split
      · exact confined_pure _
      · refine (confined_forAll fun workspace _ => looks_checkWorkspace delete workspace).bind fun reports => ?_
        split
        · exact confined_pure _
        · split
          · exact confined_pure _
          · exact (looks_checkRoot project _).bind fun _ => confined_pure _

/-! ### Runs that find everything done -/

/-- Others, and the routine itself, change nothing about the files. -/
def resting : Conduct Disk where
  allows before after := Disk.Alike before.2 after.2
  refl state := .refl state.2
  trans := Disk.Alike.trans

/-- Whether a routine goes through on a disk, and leaves its files as they are. -/
def Repeats {α : Type} (disk : Disk) (routine : Routine α) (yields : α → Prop) : Prop :=
  Abides Disk.alone resting (fun _ => False) (fun state => disk.Alike state.2) routine
    fun value state => disk.Alike state.2 ∧ yields value

section

variable {α β : Type} {disk : Disk}

theorem endures_alike : Endures resting fun state => disk.Alike state.2 :=
  fun _ _ rests alike => alike.trans rests

theorem repeats_pure {value : α} {yields : α → Prop} (known : yields value) :
    Repeats disk (pure value) yields :=
  abides_pure fun _ alike => ⟨alike, known⟩

theorem Repeats.bind {routine : Routine α} {rest : α → Routine β} {middle : α → Prop} {yields : β → Prop}
    (first : Repeats disk routine middle)
    (second : ∀ value, middle value → Repeats disk (rest value) yields) :
    Repeats disk (routine >>= rest) yields :=
  Abides.follow first second

/-- A request that changes no file is answered as it would have been before. -/
theorem repeats_ask (asked : Request) (known : asked.Answer) {rest : asked.Answer → Routine β}
    {yields : β → Prop} (same : ∀ later, disk.Alike later →
      (later.answer asked).1 = known ∧ later.Alike (later.answer asked).2)
    (goesOn : Repeats disk (rest known) yields) : Repeats disk (ask asked >>= rest) yields := by
  have asks : Repeats disk (ask asked) (· = known) := by
    refine (abides_ask asked endures_alike fun state alike => ?_).weaken ?_
    · rw [Disk.alone_eq]
      exact (same state.2 alike).2
    · rintro given now ⟨alike, asks, before, answered, _⟩
      refine ⟨alike, answered.trans ?_⟩
      rw [Disk.alone_eq]
      exact (same asks.2 before).1
  refine asks.bind ?_
  rintro _ rfl
  exact goesOn

theorem repeats_present? {path : String} {found : Option Document} {rest : Option Document → Routine β}
    {yields : β → Prop} (shown : presented path (disk.read path) = .ok found)
    (goesOn : Repeats disk (rest found) yields) : Repeats disk (present? path >>= rest) yields := by
  have presents : Repeats disk (present? path) (· = found) := by
    rw [present?_eq]
    refine repeats_ask (.read path) (disk.read path) (fun later alike => ⟨alike.read path, .refl later⟩) ?_
    rw [shown]
    exact repeats_pure rfl
  refine presents.bind ?_
  rintro _ rfl
  exact goesOn

/-- A document that is stored already is written without a change. -/
theorem repeats_write {directory path name : String} {document : Document}
    (inside : disk.project.Inside directory path name) (enters : disk.Enters directory)
    (last : (parts path).getLast? = some name) (reads : disk.read path = .ok (.obj document))
    (stores : disk.files.get? (disk.project.resolved path)
      = some (.file (.text (Json.obj document).contents))) :
    Repeats disk (writeDocument path document) fun _ => True := by
  refine repeats_ask (.write path document) (.ok ()) (fun later alike => ?_) (repeats_pure trivial)
  have project := alike.project
  refine Disk.write_again (project ▸ inside) ?_ last ((alike.read path).trans reads) ?_
  · rw [alike.spelled]
    exact ⟨enters.walk, enters.isDirectory⟩
  · rw [alike.files, project]
    exact stores

theorem repeats_forAll {κ : Type} {items : List κ} {routine : κ → Routine β} {yields : κ → β → Prop}
    (each : ∀ item ∈ items, Repeats disk (routine item) (yields item)) :
    Repeats disk (forAll items routine) fun values => List.Forall₂ yields items values := by
  have lasting (item : κ) (value : β) : Endures resting fun state => disk.Alike state.2 ∧ yields item value :=
    fun before after rests holds => ⟨holds.1.trans rests, holds.2⟩
  refine (abides_forAll endures_alike lasting each).weaken fun values now ends => ?_
  exact ⟨ends.1, ends.2.imp fun _ _ holds => holds.2⟩

end

/-! ### Workspaces that were repaired -/

section

variable {disk : Disk} {workspace : String}

theorem keptName_of_valid {document : Document} {manifest : Manifest} {name : String}
    (valid : Manifest.validate (.obj document) = .ok manifest) (named : manifest.name = some name) :
    keptName workspace document = name := by
  have checked := (Manifest.validate_eq_ok_iff.mp valid).1
  rw [named] at checked
  unfold keptName
  split
  · rename_i held found
    rw [found, Manifest.checkName] at checked
    split at checked
    · cases checked
    · rename_i filled
      rw [if_neg filled]
      exact Option.some.inj (Except.ok.inj checked)
  · rename_i other
    unfold Manifest.checkName at checked
    split at checked
    · cases checked
    · cases checked
    · rename_i held found
      exact absurd found (other held)
    · cases checked

/-- A name that was kept or given is kept. -/
theorem keptName_again (workspace : String) (held : Document) :
    keptName workspace (held.set "name" (.str (keptName workspace held))) = keptName workspace held := by
  have kept : keptName workspace held = generatedName workspace
      ∨ isBlankText (keptName workspace held) = false := by
    unfold keptName
    split
    · split
      · exact Or.inl rfl
      · rename_i filled
        exact Or.inr ((Bool.not_eq_true _).mp filled)
    · exact Or.inl rfl
  generalize keptName workspace held = name at kept
  rw [keptName, Table.get?_set, if_pos rfl]
  dsimp only
  split
  · rename_i blank
    rcases kept with same | filled
    · exact same.symm
    · rw [blank] at filled
      cases filled
  · rfl

/-- The name that a repaired manifest goes by is the one it would be given. -/
theorem Repaired.keptName {name : String} {held document : Document}
    (repaired : Repaired workspace held disk document name) :
    Doctor.keptName workspace document = name := by
  cases repaired with
  | kept valid named => exact keptName_of_valid valid named
  | written _ => exact keptName_again workspace held

variable {held document : Document} {name : String} {config : Option Document}
  {sources : List (List String)} (below : IsBelow disk.project workspace)

include below

/-- A repaired manifest is not touched, or written as it is stored. -/
theorem repeats_checkManifest (settles : Settles workspace held document name config sources disk) :
    Repeats disk (checkManifest true workspace (some document)) fun named => named.name = some name := by
  obtain ⟨shows_, repaired⟩ := settles
  have known := repaired.keptName
  unfold checkManifest
  dsimp only [Option.bind_some]
  cases repaired with
  | kept valid named =>
      rw [valid]
      dsimp only [Except.toOption]
      rw [named]
      exact repeats_pure rfl
  | written stores =>
      have again (checks : List Check) : Repeats disk
          (writeName workspace (held.set "name" (.str (Doctor.keptName workspace held)))
            (Doctor.keptName workspace held) >>= fun _ =>
              pure (Named.mk (some (Doctor.keptName workspace held)) checks))
          fun named => named.name = some (Doctor.keptName workspace held) := by
        unfold writeName
        rw [Table.set_of_get? (by rw [Table.get?_set, if_pos rfl])]
        exact (repeats_write below.manifest (Disk.enters_of_hasFiles shows_.filled)
          (Workspace.last_manifestPath workspace) (presented_eq_some.mp shows_.manifest) stores).bind
          fun _ _ => repeats_pure rfl
      cases validated : Manifest.validate (.obj (held.set "name" (.str (Doctor.keptName workspace held)))) with
      | error rejection =>
          dsimp only [Except.toOption]
          rw [known]
          exact again _
      | ok present =>
          dsimp only [Except.toOption]
          cases named : present.name with
          | some name =>
              exact repeats_pure (congrArg some ((keptName_of_valid validated named).symm.trans known))
          | none =>
              have given := (keptName_unnamed validated named).symm.trans known
              dsimp only [Option.isSome_none, Option.getD_some]
              rw [given]
              exact again _

/-- A workspace that was left alone or repaired is reported as before. -/
theorem repeats_checkWorkspace {found : List String} {delete wasFilled : Bool} {report : WorkspaceReport}
    (tidied : Tidied found delete workspace held wasFilled disk report) (stays : report.removed = false) :
    Repeats disk (checkWorkspace { fix := true, delete } workspace) fun again =>
      ∃ checks, again = { report with checks } := by
  have sources {known : List (List String)} (same : disk.sources workspace = known) :
      ∀ later : Disk, disk.Alike later → (later.answer (.sources workspace)).1 = known
        ∧ later.Alike (later.answer (.sources workspace)).2 :=
    fun later alike => ⟨(alike.sources workspace).trans same, .refl later⟩
  unfold checkWorkspace
  cases tidied with
  | removed _ _ _ => cases stays
  | empty forbidden _ shows_ =>
      subst forbidden
      refine repeats_present? shows_.manifest (repeats_present? shows_.config ?_)
      refine repeats_ask (.sources workspace) [] (sources shows_.sources) ?_
      refine repeats_ask (.hasFiles workspace) false
        (fun later alike => ⟨(alike.hasFiles workspace).trans shows_.filled, .refl later⟩) ?_
      exact repeats_pure ⟨[], rfl⟩
  | mended _ settles configured =>
      refine repeats_present? settles.shows_.manifest (repeats_present? settles.shows_.config ?_)
      refine repeats_ask (.sources workspace) _ (sources settles.shows_.sources) ?_
      obtain ⟨check, _, passes⟩ := checkConfig_passes true workspace configured
      rw [Option.isNone_some, Bool.and_false]
      dsimp only
      rw [if_neg (by decide), passes]
      refine (repeats_checkManifest below settles).bind fun named known => ?_
      refine repeats_pure ⟨named.checks ++ [check], ?_⟩
      rw [known]

end

/-- What is reported of a workspace is a matter of what there is. -/
theorem Tidied.outline_eq {found : List String} {delete wasFilled : Bool} {workspace : String}
    {held : Document} {disk : Disk} {report other : WorkspaceReport}
    (tidied : Tidied found delete workspace held wasFilled disk report)
    (otherTidied : Tidied found delete workspace held wasFilled disk other) :
    outline report = outline other := by
  cases tidied with
  | removed _ unfilled _ =>
      subst unfilled
      cases otherTidied with
      | removed _ _ _ => rfl
      | empty _ _ _ => rfl
      | mended filled _ _ => cases filled
  | empty _ unfilled _ =>
      subst unfilled
      cases otherTidied with
      | removed _ _ _ => rfl
      | empty _ _ _ => rfl
      | mended filled _ _ => cases filled
  | mended filled settles configured =>
      subst filled
      cases otherTidied with
      | removed _ unfilled _ => cases unfilled
      | empty _ unfilled _ => cases unfilled
      | mended _ otherSettles otherConfigured =>
          cases Except.ok.inj (settles.shows_.manifest.symm.trans otherSettles.shows_.manifest)
          cases Except.ok.inj (settles.shows_.config.symm.trans otherSettles.shows_.config)
          cases settles.shows_.sources.symm.trans otherSettles.shows_.sources
          cases settles.repaired.keptName.symm.trans otherSettles.repaired.keptName
          rw [configured.unique otherConfigured]
          rfl

/-- The workspaces that have files are named. -/
theorem Tidied.named {found : List String} {delete wasFilled : Bool} {workspace : String}
    {held : Document} {disk : Disk} {report : WorkspaceReport}
    (tidied : Tidied found delete workspace held wasFilled disk report) :
    report.name.isSome = wasFilled := by
  cases tidied with
  | removed _ unfilled _ => exact unfilled.symm
  | empty _ unfilled _ => exact unfilled.symm
  | mended filled _ _ => exact filled.symm

/-! ### Reports that name a workspace -/

/-- The reports that have a name are all that matters for the root. -/
def naming (reports : List WorkspaceReport) : List WorkspaceReport :=
  reports.filter (·.name.isSome)

theorem referenced_naming (reports : List WorkspaceReport) :
    referenced (naming reports) = referenced reports := by
  unfold referenced naming
  rw [List.filter_filter]
  refine congrArg (List.map WorkspaceReport.path) (List.filter_congr fun report _ => ?_)
  cases report.name <;> simp

theorem duplicates_naming (reports : List WorkspaceReport) :
    duplicates (naming reports) = duplicates reports := by
  have names : (naming reports).filterMap nameOf? = reports.filterMap nameOf? := by
    unfold naming
    rw [List.filterMap_filter]
    refine List.filterMap_congr fun report _ => ?_
    unfold nameOf?
    cases report.name <;> rfl
  unfold duplicates
  rw [names]
  refine congrArg (fun choose => List.filterMap choose _) (funext fun name => ?_)
  have held : (naming reports).filter (nameOf? · == some name) = reports.filter (nameOf? · == some name) := by
    unfold naming
    rw [List.filter_filter]
    refine List.filter_congr fun report _ => ?_
    unfold nameOf?
    cases report.name <;> simp
  dsimp only
  rw [held]

theorem forall₂_filter {α β : Type} {related : α → β → Prop} {items : List α} {values : List β}
    {keep : α → Bool} {keepToo : β → Bool} (all : List.Forall₂ related items values)
    (same : ∀ item value, related item value → keepToo value = keep item) :
    List.Forall₂ related (items.filter keep) (values.filter keepToo) :=
  List.rel_filter (fun item value ends => iff_of_eq (congrArg (· = true) (same item value ends).symm)) all

theorem map_eq_of_forall₂ {α β γ : Type} {first second : α → β → Prop} {items : List α}
    {values others : List β} {view : β → γ} (left : List.Forall₂ first items values)
    (right : List.Forall₂ second items others)
    (same : ∀ item value other, first item value → second item other → view value = view other) :
    values.map view = others.map view := by
  induction left generalizing others with
  | nil =>
      cases right
      rfl
  | cons here _ ih =>
      cases right with
      | cons there rest => rw [List.map_cons, List.map_cons, same _ _ _ here there, ih rest]

/-! ### Whole runs that find everything done -/

/-- Whether a run removes a workspace: it may, and the workspace has no files. -/
def goes (disk : Disk) (delete : Bool) (workspace : String) : Bool :=
  delete && !disk.hasFiles workspace

section

variable {origin : Disk} {delete : Bool} {found : List String}
  {reports : List WorkspaceReport} {now : Engine × Disk}

theorem AllTidied.reported {disk : Disk} (tidied : AllTidied origin delete found reports disk)
    {workspace : String} (member : workspace ∈ found) :
    ∃ report, Tidied found delete workspace (heldManifest origin workspace) (origin.hasFiles workspace)
      disk report := by
  obtain ⟨report, _, ends⟩ := exists_of_forall₂ tidied.flip member
  exact ⟨report, ends⟩

/-- A run names the workspaces that have files. -/
theorem AllTidied.naming {disk : Disk} (tidied : AllTidied origin delete found reports disk) :
    List.Forall₂ (fun workspace report => Tidied found delete workspace (heldManifest origin workspace)
        (origin.hasFiles workspace) disk report)
      (found.filter origin.hasFiles) (Doctor.naming reports) :=
  forall₂_filter tidied fun _ _ ends => ends.named

/-- What a run over the workspaces that are left reports, and that it changes nothing. -/
theorem leads_repeatAll (below : ∀ workspace ∈ found, IsBelow now.2.project workspace)
    (tidied : AllTidied origin delete found reports now.2) :
    Leads Disk.alone (forAll (found.filter fun workspace => !goes origin delete workspace)
        (checkWorkspace { fix := true, delete })) now fun result later => now.2.Alike later.2
      ∧ ∃ again, result = .ok again ∧ (naming again).map outline = (naming reports).map outline
        ∧ (again.any fun report => report.name.isNone && !(report.redundant || report.removed)) = false := by
  let ends (workspace : String) (report : WorkspaceReport) : Prop :=
    Tidied found delete workspace (heldManifest origin workspace) (origin.hasFiles workspace) now.2 report
  have each : Repeats now.2 (forAll (found.filter fun workspace => !goes origin delete workspace)
      (checkWorkspace { fix := true, delete })) fun again => List.Forall₂ (fun workspace report =>
        ∃ before checks, ends workspace before ∧ before.removed = false ∧ report = { before with checks })
        (found.filter fun workspace => !goes origin delete workspace) again := by
    refine repeats_forAll fun workspace member => ?_
    obtain ⟨inFound, stays⟩ := List.mem_filter.mp member
    obtain ⟨report, tidiedThis⟩ := tidied.reported inFound
    have left : report.removed = false := by
      cases tidiedThis with
      | removed allowed unfilled _ =>
          rw [goes, allowed, unfilled] at stays
          cases stays
      | empty _ _ _ => rfl
      | mended _ _ _ => rfl
    refine (repeats_checkWorkspace (below workspace inFound) tidiedThis left).weaken ?_
    rintro value state ⟨alike, checks, rfl⟩
    exact ⟨alike, report, checks, tidiedThis, left, rfl⟩
  refine (each.leads (Disk.Alike.refl now.2)).weaken fun result later ended => ⟨ended.1, ?_⟩
  cases result with
  | error failure =>
      obtain ⟨_, ⟨_, none⟩, _⟩ := ended
      exact none.elim
  | ok again =>
      have all := ended.2.2
      refine ⟨again, rfl, ?_, ?_⟩
      · -- The workspaces that have files are left, and the others have no name.
        have kept : (found.filter fun workspace => !goes origin delete workspace).filter origin.hasFiles
            = found.filter origin.hasFiles := by
          rw [List.filter_filter]
          refine List.filter_congr fun workspace _ => ?_
          unfold goes
          cases origin.hasFiles workspace <;> simp
        have named : List.Forall₂ _ _ (naming again) := forall₂_filter all
          fun workspace report ⟨before, checks, ends, _, same⟩ => by rw [same]; exact ends.named
        rw [kept] at named
        refine map_eq_of_forall₂ named tidied.naming ?_
        rintro workspace _ other ⟨before, checks, ends, _, rfl⟩ otherEnds
        exact ends.outline_eq otherEnds
      · rw [List.any_eq_false]
        intro report member
        obtain ⟨workspace, _, before, checks, tidiedThis, left, rfl⟩ := exists_of_forall₂ all member
        cases tidiedThis with
        | removed _ _ _ => cases left
        | empty _ _ _ => exact Bool.false_ne_true
        | mended _ _ _ => exact Bool.false_ne_true

theorem RootSound.alike {workspaces : List String} {disk after : Disk} (sound : RootSound workspaces disk)
    (alike : disk.Alike after) : RootSound workspaces after := by
  obtain ⟨config, references, found, resolves, satisfied⟩ := sound
  refine ⟨config, references, ?_, ?_, satisfied⟩
  · rw [alike.read]
    exact found
  · rw [alike.project]
    exact resolves

/-- A run over what another one has left goes through and changes nothing. -/
theorem leads_again {after : Disk} (engine : Engine) {gone : List String}
    (below : ∀ workspace ∈ found, IsBelow after.project workspace)
    (fixed : Fixed origin delete gone found reports after)
    (globbed : Matches after (found.filter fun workspace => !goes origin delete workspace)) :
    Leads Disk.alone (run after.project { fix := true, delete }) (engine, after) fun result later =>
      after.Alike later.2 ∧ ∃ outcome, result = .ok outcome := by
  have surveyed := globbed.survey
  refine leads_run (fun stop _ => ⟨.refl after, _, rfl⟩) (fun fault failed => ?_) fun others lists => ?_
  · split at surveyed
    · cases surveyed.symm.trans failed
    · cases surveyed.symm.trans failed
  split at surveyed
  · cases surveyed.symm.trans lists
  cases surveyed.symm.trans lists
  unfold checkAll
  refine (@leads_repeatAll origin delete found reports (engine, after) below fixed.tidied).bind ?_ ?_
  · rintro again later ⟨alike, _, ⟨rfl⟩, outlines, named⟩
    dsimp only
    rw [named, Bool.and_false, if_neg (by decide), ← duplicates_naming again,
      duplicates_outlines outlines, duplicates_naming reports]
    split
    · exact leads_pure ⟨alike, _, rfl⟩
    · rename_i distinct
      have root : RootSound (referenced again) later.2 := by
        have sound := fixed.root (by simpa using distinct)
        rw [← referenced_naming again, referenced_outlines outlines, referenced_naming reports]
        exact sound.alike alike
      refine (leads_checkRoot alike.project root true).bind ?_ ?_
      · rintro checks final ⟨rfl, _⟩
        exact leads_pure ⟨alike, _, rfl⟩
      · rintro failure final ⟨_, _, ⟨⟩, _⟩
  · rintro failure later ⟨_, _, ⟨⟩, _⟩

end

/-- The workspaces that a run removes. -/
def removals (disk : Disk) (delete : Bool) (found : List String) : List String :=
  found.filter (goes disk delete)

/-- The workspaces that a run leaves. -/
def remains (disk : Disk) (delete : Bool) (found : List String) : List String :=
  found.filter fun workspace => !goes disk delete workspace

/-- What makes a project one that can be fixed twice: no workspace is the root, and when the ones that
are removed are gone, the globs match the others. -/
structure Repeatable (disk : Disk) (delete : Bool) : Prop where
  proper : disk.files.IsProper
  distinct : disk.files.IsDistinct
  below found : Matches disk found → ∀ workspace ∈ found, workspace ≠ "."
  globs found : delete = true → Matches disk found →
    Matches (disk.without (removals disk delete found)) (remains disk delete found)

section

variable {disk : Disk} {delete : Bool} {found : List String}

theorem FileTree.IsProper.removeAll {tree : FileTree} (proper : tree.IsProper) (roots : List Place) :
    (tree.removeAll roots).IsProper :=
  fun entry member => proper entry ((FileTree.entries_removeAll tree roots).subset member)

theorem removals_of_kept (disk : Disk) (found : List String) : removals disk false found = [] :=
  List.filter_eq_nil_iff.mpr fun _ _ => Bool.false_ne_true

theorem remains_of_kept (disk : Disk) (found : List String) : remains disk false found = found :=
  List.filter_eq_self.mpr fun _ _ => rfl

/-- The globs match what a run leaves, when everything else is gone. -/
theorem Repeatable.left (repeatable : Repeatable disk delete) (globbed : Matches disk found) :
    Matches (disk.without (removals disk delete found)) (remains disk delete found) := by
  cases delete with
  | false =>
      rw [removals_of_kept, remains_of_kept]
      exact globbed
  | true => exact repeatable.globs found rfl globbed

/-- No workspace that goes has the root in it. -/
theorem Matches.outside {gone rest : List String} (globbed : Matches (disk.without gone) rest)
    {workspace : String} (member : workspace ∈ gone) : disk.project.resolved workspace ≠ [] := by
  intro top
  obtain ⟨content, holds⟩ := globbed.readable
  have found : (disk.files.removeAll (gone.map disk.project.resolved)).get?
      (disk.project.resolved manifestFile) = some (.file content) := holds.found
  rw [(inside_manifestFile disk.project).resolved, FileTree.get?_removeAll _ _ (by simp),
    if_pos] at found
  · cases found
  · rw [FileTree.any_isPrefixOf]
    exact ⟨_, List.mem_map_of_mem member, top ▸ List.nil_prefix⟩

/-- The way to a workspace that is left leads through none that goes. -/
theorem Matches.enters {gone rest : List String} (globbed : Matches (disk.without gone) rest)
    {workspace : String} (member : workspace ∈ rest) (enters : disk.Enters workspace) :
    (disk.without gone).Enters workspace := by
  have root := Disk.enters_of_hasFiles globbed.filled
  obtain ⟨_, globs, _, _, discovers⟩ := globbed
  exact enters.without ((Disk.discovered discovers).2 workspace member) root
    (Disk.discovered_directory discovers member)

theorem Repeatable.removable (repeatable : Repeatable disk delete) (globbed : Matches disk found)
    (allowed : delete = true) : Removable (removals disk delete found) found disk := by
  have left := repeatable.globs found allowed globbed
  refine ⟨repeatable.distinct, fun workspace member unfilled => ?_,
    fun workspace member => left.outside member, fun workspace member filled => ?_⟩
  · exact List.mem_filter.mpr ⟨member, by rw [goes, allowed, unfilled]; rfl⟩
  · refine left.enters ?_ (Disk.enters_of_hasFiles filled)
    exact List.mem_filter.mpr ⟨member, by rw [goes, allowed, filled]; rfl⟩

/-- After a run that came to its end the globs match the workspaces that are left. -/
theorem Fixed.globs {reports : List WorkspaceReport} {after : Disk} (repeatable : Repeatable disk delete)
    (globbed : Matches disk found)
    (fixed : Fixed disk delete (removals disk delete found) found reports after) :
    Matches after (remains disk delete found) := by
  have left := repeatable.left globbed
  have below : ∀ workspace ∈ found,
      IsBelow (disk.without (removals disk delete found)).project workspace :=
    globbed.below (repeatable.below found globbed)
  refine left.gains below (FileTree.IsProper.removeAll repeatable.proper _) fixed.clears.same
    (fixed.clears.files.gains ?_)
  rintro place ⟨root, member, within⟩
  obtain ⟨workspace, removed, rfl⟩ := List.mem_map.mp member
  obtain ⟨inFound, isGone⟩ := List.mem_filter.mp removed
  rw [goes, Bool.and_eq_true, Bool.not_eq_true'] at isGone
  have vacated : Vacated found workspace after := by
    obtain ⟨report, ends⟩ := fixed.tidied.reported inFound
    cases ends with
    | removed _ _ vacated => exact vacated
    | empty forbidden _ _ => cases isGone.1.symm.trans forbidden
    | mended filled _ _ => cases isGone.2.symm.trans filled
  have held := vacated place
  rw [fixed.clears.same] at held
  exact held within

end

/-- A run that fixes things stops at once, or leaves a project that can be gone through again. -/
theorem leads_fixing {delete : Bool} {now : Engine × Disk} (repeatable : Repeatable now.2 delete) :
    Leads Disk.alone (run now.2.project { fix := true, delete }) now (granted fun _ later =>
      later.2 = now.2 ∧ (∃ stop, survey now.2 = .ok (.error stop))
        ∨ ∃ found reports, Fixed now.2 delete (removals now.2 delete found) found reports later.2
          ∧ (∀ workspace ∈ found, IsBelow now.2.project workspace)
          ∧ Matches later.2 (remains now.2 delete found)) := by
  refine leads_run (fun stop stopped => ?_) (fun fault _ => granted_error) fun found surveyed => ?_
  · exact fun _ _ => Or.inl ⟨rfl, stop, stopped⟩
  · obtain ⟨globbed, _⟩ := matches_of_survey surveyed
    have notRoot := repeatable.below found globbed
    refine (leads_fixAll _ delete globbed notRoot (repeatable.removable globbed)
      (repeatable.left globbed)).weaken fun result later ended outcome same => ?_
    obtain ⟨reports, fixed, _⟩ := ended outcome same
    exact Or.inr ⟨found, reports, fixed, globbed.below notRoot, fixed.globs repeatable globbed⟩

/-- Without `fix` a run leaves the disk as it is, however it ends. With it, a run that came to its
end is followed by one that comes to its end too and leaves the files as they are, unless the globs
lead to a workspace through one that is removed. -/
theorem fixed_project_is_left_alone {disk : Disk} {engine again : Engine} (delete : Bool) :
    (∀ result after, Finishes Disk.alone (run disk.project { fix := false, delete }) (engine, disk)
        result after → after.2 = disk)
      ∧ (Repeatable disk delete → ∀ outcome after,
        Finishes Disk.alone (run disk.project { fix := true, delete }) (engine, disk) (.ok outcome) after →
        (∃ result final, Finishes Disk.alone (run disk.project { fix := true, delete }) (again, after.2)
            result final)
          ∧ ∀ result final, Finishes Disk.alone (run disk.project { fix := true, delete })
              (again, after.2) result final →
            (∃ repeated, result = .ok repeated) ∧ after.2.Alike final.2) := by
  refine ⟨fun result after finishes => (looks_run disk.project delete).finishes finishes,
    fun repeatable outcome after finishes => ⟨⟨_, _, run_finishes _ _ _⟩, fun result final ends => ?_⟩⟩
  have started : Repeatable (engine, disk).2 delete := repeatable
  have repeats : Leads Disk.alone (run disk.project { fix := true, delete }) (again, after.2)
      fun result later => after.2.Alike later.2 ∧ ∃ repeated, result = .ok repeated := by
    rcases (leads_fixing started).finishes finishes outcome rfl with
      ⟨same, stop, stopped⟩ | ⟨found, reports, fixed, below, globbed⟩
    · rw [← same] at stopped
      refine leads_run (fun _ _ => ⟨.refl after.2, _, rfl⟩) (fun fault failed => ?_) fun others found => ?_
      · cases stopped.symm.trans failed
      · cases stopped.symm.trans found
    · have project : after.2.project = disk.project := fixed.clears.same
      rw [← project] at below ⊢
      exact leads_again again below fixed globbed
  exact (repeats.finishes ends).symm

/-- A project with the given manifest, and what else is in it. -/
def emptiedProject (manifest : String) (rest : List (Place × Entry)) : Disk where
  project := ⟨"/p"⟩
  files := { entries :=
    (["p"], .directory) :: (["p", "package.json"], .file (.text manifest.toList)) :: rest }

/-- One of two workspaces is empty and removed, and the other one is configured. -/
theorem emptied_project_is_left_alone : ∃ (disk : Disk) (outcome : Outcome) (after : Engine × Disk),
    Repeatable disk true ∧ disk.files.get? ["p", "e"] = some .directory
      ∧ Finishes Disk.alone (run disk.project { fix := true, delete := true }) ({}, disk) (.ok outcome) after
      ∧ after.2.files.get? ["p", "e"] = none ∧ (after.2.read (Workspace.configPath "a")).isOk = true
      ∧ ∀ result final, Finishes Disk.alone (run disk.project { fix := true, delete := true })
          ({}, after.2) result final → (∃ repeated, result = .ok repeated) ∧ after.2.Alike final.2 := by
  obtain ⟨disk, isDisk⟩ : ∃ disk, emptiedProject "\x7b\"workspaces\":[\"a\",\"e\"]\x7d"
      [(["p", "a"], .directory), (["p", "a", "a.ts"], .file (.text [])), (["p", "e"], .directory)]
        = disk := ⟨_, rfl⟩
  have globbed : Matches disk ["a", "e"] := matches_of_checks (by subst isDisk; decide +kernel)
  have left : Matches (disk.without ["e"]) ["a"] := matches_of_checks (by subst isDisk; decide +kernel)
  obtain ⟨proper, distinct, present, goesAway, stays⟩ : disk.files.IsProper
      ∧ disk.files.IsDistinct ∧ disk.files.get? ["p", "e"] = some .directory
      ∧ removals disk true ["a", "e"] = ["e"] ∧ remains disk true ["a", "e"] = ["a"] := by
    subst isDisk
    decide +kernel
  have repeatable : Repeatable disk true := by
    refine ⟨proper, distinct, fun found others => ?_, fun found _ others => ?_⟩
    · rw [globbed.unique others]
      decide
    · rw [globbed.unique others, goesAway, stays]
      exact left
  obtain ⟨first, isFirst⟩ : ∃ first,
      (run disk.project { fix := true, delete := true }).run Disk.alone ({}, disk) = first := ⟨_, rfl⟩
  obtain ⟨completes, removed, configured⟩ : first.1.isOk = true ∧ first.2.2.files.get? ["p", "e"] = none
      ∧ (first.2.2.read (Workspace.configPath "a")).isOk = true := by
    subst isFirst isDisk
    decide +kernel
  have finishes := run_finishes Disk.alone (run disk.project { fix := true, delete := true }) ({}, disk)
  rw [isFirst] at finishes
  cases ends : first.1 with
  | error failure =>
      rw [ends] at completes
      cases completes
  | ok outcome =>
      rw [ends] at finishes
      exact ⟨disk, outcome, first.2, repeatable, present, finishes, removed, configured,
        (fixed_project_is_left_alone true).2 repeatable outcome first.2 finishes |>.2⟩

/-- A glob leads through an empty workspace to another one. Once the empty one is removed, the next
run finds the other one no more and takes it from the root config. -/
theorem glob_through_removed_workspace : ∃ (disk : Disk) (outcome repeated : Outcome)
    (after final : Engine × Disk), disk.files.IsProper ∧ disk.files.IsDistinct
      ∧ Matches disk ["c", "d", "e"]
      ∧ Finishes Disk.alone (run disk.project { fix := true, delete := true }) ({}, disk) (.ok outcome) after
      ∧ Finishes Disk.alone (run disk.project { fix := true, delete := true }) ({}, after.2) (.ok repeated)
        final
      ∧ after.2.files.get? ["p", "tsconfig.json"] ≠ final.2.files.get? ["p", "tsconfig.json"] := by
  let workspace (name : String) : List (Place × Entry) :=
    [(["p", name], .directory), (["p", name, "tsconfig.json"], .file (.text "\x7b\x7d".toList)),
      (["p", name, "package.json"],
        .file (.text ("\x7b\"name\":\"".toList ++ name.toList ++ "\"\x7d".toList)))]
  obtain ⟨disk, isDisk⟩ : ∃ disk, emptiedProject "\x7b\"workspaces\":[\"e\",\"e/../c\",\"d\"]\x7d"
      ((["p", "e"], .directory) :: (workspace "c" ++ workspace "d")) = disk := ⟨_, rfl⟩
  have globbed : Matches disk ["c", "d", "e"] := matches_of_checks (by subst isDisk; decide +kernel)
  obtain ⟨first, isFirst⟩ : ∃ first,
      (run disk.project { fix := true, delete := true }).run Disk.alone ({}, disk) = first := ⟨_, rfl⟩
  obtain ⟨second, isSecond⟩ : ∃ second, (run disk.project { fix := true, delete := true }).run
      Disk.alone ({}, first.2.2) = second := ⟨_, rfl⟩
  obtain ⟨proper, distinct, completes, completesAgain, differ⟩ : disk.files.IsProper
      ∧ disk.files.IsDistinct ∧ (first.1.toOption.any fun _ => true) = true
      ∧ (second.1.toOption.any fun _ => true) = true
      ∧ first.2.2.files.get? ["p", "tsconfig.json"] ≠ second.2.2.files.get? ["p", "tsconfig.json"] := by
    subst isSecond isFirst isDisk
    decide +kernel
  obtain ⟨outcome, ends, _⟩ := ok_of_any completes
  obtain ⟨repeated, endsAgain, _⟩ := ok_of_any completesAgain
  have finishes := run_finishes Disk.alone (run disk.project { fix := true, delete := true }) ({}, disk)
  have finishesAgain := run_finishes Disk.alone (run disk.project { fix := true, delete := true })
    ({}, first.2.2)
  rw [isFirst, ends] at finishes
  rw [isSecond, endsAgain] at finishesAgain
  exact ⟨disk, outcome, repeated, first.2, second.2, proper, distinct, globbed, finishes, finishesAgain,
    differ⟩

end Doctor
end RefSync
