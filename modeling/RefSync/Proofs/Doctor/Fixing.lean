/-
Whole runs of the doctor. A run that was allowed to fix things and was not stopped leaves a
project that passes: the next run finds nothing to complain about.
-/

import RefSync.Proofs.Config.Root
import RefSync.Proofs.Doctor.Workspaces
import RefSync.Proofs.Routine.Alone
import RefSync.Proofs.Update.Root

namespace RefSync

open Routine Path

namespace Doctor

/-- What holds at the end of a routine that goes through. -/
def granted {β : Type} (good : β → Engine × Disk → Prop) : Except Failure β → Engine × Disk → Prop :=
  fun result later => ∀ value, result = .ok value → good value later

theorem granted_error {β : Type} {good : β → Engine × Disk → Prop} {failure : Failure}
    {state : Engine × Disk} : granted good (.error failure) state := by
  intro value same
  cases same

section

variable {α β : Type} {now : Engine × Disk} {good : β → Engine × Disk → Prop}

theorem leads_value {value : β} (holds : good value now) :
    Leads Disk.alone (pure value) now (granted good) := by
  refine leads_pure ?_
  rintro _ ⟨rfl⟩
  exact holds

theorem leads_present? {path : String} {rest : Option Document → Routine β}
    (goesOn : ∀ found, presented path (now.2.read path) = .ok found →
      Leads Disk.alone (rest found) now (granted good)) :
    Leads Disk.alone (present? path >>= rest) now (granted good) := by
  have shown (later : Engine × Disk) (reached : Conduct.none.allows now later) :
      presented path (later.2.read path) = presented path (now.2.read path) := by
    cases reached
    rfl
  intro start
  refine meets_present? trivial shown ?_ fun fault _ resumes => granted_error
  rintro found known _ ⟨rfl⟩
  exact goesOn found known _

theorem leads_put {path : String} {document : Document} {rest : Unit → Routine β}
    (goesOn : (now.2.write path document).1 = .ok () →
      Leads Disk.alone (rest ()) (now.1, (now.2.write path document).2) (granted good)) :
    Leads Disk.alone (writeDocument path document >>= rest) now (granted good) := by
  intro start
  refine meets_put trivial (fun _ _ => trivial) ?_ fun fault resumes => granted_error
  rintro _ _ ⟨rfl⟩ written ⟨rfl⟩
  exact goesOn written _

theorem leads_ofExcept {κ : Type} {toFault : κ → Fault} {outcome : Except κ α} {rest : α → Routine β}
    (goesOn : ∀ value, outcome = .ok value → Leads Disk.alone (rest value) now (granted good)) :
    Leads Disk.alone (ofExcept toFault outcome >>= rest) now (granted good) := by
  cases outcome with
  | ok value => exact goesOn value rfl
  | error problem => exact fun start => granted_error

theorem leads_granted {middle : α → Engine × Disk → Prop} {routine : Routine α} {rest : α → Routine β}
    (first : Leads Disk.alone routine now (granted middle))
    (goesOn : ∀ value later, middle value later → Leads Disk.alone (rest value) later (granted good)) :
    Leads Disk.alone (routine >>= rest) now (granted good) :=
  first.bind (fun value later holds => goesOn value later (holds value rfl)) fun _ _ _ => granted_error

end

/-! ### The root -/

theorem inside_configFile (project : Project) : project.Inside "." configFile configFile :=
  project.inside_root isName_configFile

theorem last_configFile : (parts configFile).getLast? = some configFile := by
  decide

/-- Whether the root config references exactly some workspaces. -/
def RootSound (workspaces : List String) (disk : Disk) : Prop :=
  ∃ config references, presented configFile (disk.read configFile) = .ok (some config)
    ∧ Update.rootReferences disk.project workspaces = .ok references
    ∧ Config.isRootSatisfactory config references = .ok true

section

variable {project : Project} {workspaces : List String} {now : Engine × Disk}
  (same : now.2.project = project) (relative : ∀ workspace ∈ workspaces, project.IsRelative workspace)
  (once : workspaces.Nodup) (filled : now.2.hasFiles "." = true)

/-- What a repair of the root leaves. -/
def RootMended (project : Project) (workspaces : List String) (before after : Engine × Disk) : Prop :=
  Mends (· = project.resolved configFile) before.2 after.2 ∧ RootSound workspaces after.2

include same relative once filled

attribute [local irreducible] Disk.write

theorem leads_updateRoot {config : Document} (reads : now.2.read configFile = .ok (.obj config)) :
    Leads Disk.alone (Update.root project workspaces) now
      (granted fun _ later => RootMended project workspaces now later) := by
  subst same
  have clean : Document.Clean config := Document.clean_obj.mp (Disk.clean_of_read reads)
  have resolves := Update.rootReferences_relative relative
  have finds : now.2.Finds? configFile (some config) := reads
  unfold Update.root
  refine leads_readObject? finds ?_
  refine leads_ofExcept fun references known => leads_ofExcept fun update updates => ?_
  obtain ⟨cleans, aggregates⟩ := Config.aggregates_updateRoot clean updates
  cases resolves.symm.trans known
  have satisfies := aggregates.satisfies (sortTexts_nodup.mpr once)
  cases update with
  | none =>
      exact leads_value ⟨.refl _ _, config, _, presented_eq_some.mpr reads, resolves, satisfies⟩
  | some updated =>
      refine leads_put fun written => leads_log (leads_value ?_)
      have mends := mends_write (inside_configFile _) filled (by decide +kernel) updated
      have after := Disk.read_written last_configFile (by decide) (cleans updated rfl) written
      exact ⟨mends, updated, _, presented_eq_some.mpr after, mends.same ▸ resolves, satisfies⟩

/-- A repair of the root that goes through leaves a root that passes. -/
theorem leads_mendRoot :
    Leads Disk.alone (checkRoot project true workspaces) now
      (granted fun _ later => RootMended project workspaces now later) := by
  have updates {config : Document} (check : Check)
      (reads : now.2.read configFile = .ok (.obj config)) :
      Leads Disk.alone (Update.root project workspaces >>= fun _ =>
        pure [⟨.ok, "package.json"⟩, check]) now
        (granted fun _ later => RootMended project workspaces now later) :=
    leads_granted (leads_updateRoot same relative once filled reads) fun _ _ mended => leads_value mended
  unfold checkRoot
  refine leads_present? fun found known => ?_
  cases found with
  | none =>
      refine leads_put fun written => ?_
      subst same
      have clean : Document.Clean Config.newRoot :=
        ⟨by decide, by simp [Config.newRoot, Json.Clean.arr]⟩
      have mends := mends_write (inside_configFile _) filled (by decide +kernel) Config.newRoot
      have reads := Disk.read_written last_configFile (by decide) clean written
      refine leads_granted (leads_updateRoot mends.same relative once
        ((mends.hasFiles ".").trans filled) reads) fun _ later mended => leads_value ?_
      exact ⟨mends.trans mended.1, mended.2⟩
  | some config =>
      have reads := presented_eq_some.mp known
      refine leads_ofExcept fun references resolves => leads_ofExcept fun satisfactory checked => ?_
      cases satisfactory with
      | true =>
          refine leads_value ⟨.refl _ _, config, references, known, same ▸ resolves, checked⟩
      | false => exact updates _ reads

end

/-- A root that passes is left as it is. -/
theorem leads_checkRoot {project : Project} {workspaces : List String} {now : Engine × Disk}
    (same : now.2.project = project) (sound : RootSound workspaces now.2) (fix : Bool) :
    Leads Disk.alone (checkRoot project fix workspaces) now fun result later =>
      later = now ∧ ∃ checks, result = .ok checks ∧ anyFailed checks = false := by
  obtain ⟨config, references, found, resolves, satisfied⟩ := sound
  have shown (later : Engine × Disk) (reached : Conduct.none.allows now later) :
      presented configFile (later.2.read configFile) = .ok (some config) := by
    cases reached
    exact found
  rw [same] at resolves
  unfold checkRoot
  intro start
  refine meets_present? trivial shown ?_ fun _ failed => nomatch failed
  rintro _ ⟨rfl⟩ _ ⟨rfl⟩
  dsimp only
  rw [resolves, meets_ok, satisfied, meets_ok]
  exact ⟨rfl, _, rfl, rfl⟩

/-! ### All workspaces -/

/-- The workspaces that the root refers to. -/
def referenced (reports : List WorkspaceReport) : List String :=
  (reports.filter fun report => report.name.isSome && report.hasConfig).map (·.path)

def AllSound (found : List String) (reports : List WorkspaceReport) (disk : Disk) : Prop :=
  List.Forall₂ (fun workspace report => Sound workspace report disk) found reports

/-- How a run that fixes things leaves the workspaces that were found on some disk. -/
def AllTidied (origin : Disk) (delete : Bool) (found : List String) (reports : List WorkspaceReport)
    (disk : Disk) : Prop :=
  List.Forall₂ (fun workspace report => Tidied found delete workspace (heldManifest origin workspace)
    (origin.hasFiles workspace) disk report) found reports

theorem leads_mendAll {gone found : List String} {delete : Bool} {now : Engine × Disk}
    (once : found.Nodup) (below : ∀ workspace ∈ found, IsBelow now.2.project workspace)
    (removable : delete = true → Removable gone found now.2) :
    Leads Disk.alone (forAll found (checkWorkspace { fix := true, delete })) now
      (granted fun reports later => Clears gone found now.2 later.2
        ∧ AllTidied now.2 delete found reports later.2) := by
  have together (spared : String → Prop) (before after : Engine × Disk)
      (does : (mending now.2 gone found spared).allows before after) :
      (mending now.2 gone found fun _ => False).allows before after :=
    fun reached => ⟨(does reached).1, nofun⟩
  intro start
  refine meets_forAll_distinct once (mendingOthers now.2 gone found) (mendingOwn now.2 gone found)
    (mending now.2 gone found fun _ => False)
    (fun workspace report state => Clears gone found now.2 state.2 ∧ Tidied found delete workspace
      (heldManifest now.2 workspace) (now.2.hasFiles workspace) state.2 report)
    True (fun _ => True) trivial ?_ ?_ ?_ ?_ ?_ ?_ fun _ _ _ _ _ => granted_error
  · rintro workspace _ before _ ⟨rfl⟩
    exact (mendingOthers now.2 gone found workspace).refl before
  · intro workspace member other _ differs before after does reached
    refine ⟨(does reached).1, ?_⟩
    rintro _ rfl
    exact (does reached).2 _ ⟨member, differs⟩
  · rintro before _ ⟨rfl⟩
    exact (mending now.2 gone found fun _ => False).refl before
  · intro workspace _ before after does
    exact ⟨together _ before after does, trivial⟩
  · intro workspace member begins reaching
    obtain ⟨clears, leaves⟩ := resumed (.refl gone found now.2) reaching
    exact meets_mendWorkspace below member clears leaves removable
  · rintro joins values reaching tidied _ ⟨rfl⟩
    exact ⟨(reaching (.refl gone found now.2)).1, tidied.imp fun _ _ ends => ends.2⟩

/-! ### Whole runs -/

/-- What a run takes the root manifest to be. -/
def rootManifest (disk : Disk) : Except Fault Manifest :=
  (objectOf manifestFile (disk.read manifestFile)).bind fun document =>
    (Manifest.validate (.obj document)).mapError Fault.invalid

/-- Whether globs of the root manifest match some workspaces. -/
def Matches (disk : Disk) (found : List String) : Prop :=
  ∃ manifest globs, rootManifest disk = .ok manifest ∧ manifest.workspaces = some globs
    ∧ disk.discover globs = .ok found

/-- Whether a project passes the checks of the doctor. -/
structure Healthy (disk : Disk) (found : List String) (reports : List WorkspaceReport) : Prop where
  globs : Matches disk found
  some : found ≠ []
  workspaces : AllSound found reports disk
  distinct : duplicates reports = []
  root : RootSound (referenced reports) disk

/-- What a run comes to that looks for workspaces: it fails, it stops, or it finds some. -/
def survey (disk : Disk) : Except Fault (Except Stop (List String)) :=
  match rootManifest disk with
  | .error _ => .ok (.error .rootManifest)
  | .ok manifest =>
      match manifest.workspaces with
      | none => .ok (.error .noGlobs)
      | some globs =>
          match disk.discover globs with
          | .error fault => .error (.read fault)
          | .ok found => if found.isEmpty then .ok (.error .noWorkspaces) else .ok (.ok found)

theorem Matches.survey {disk : Disk} {found : List String} (globbed : Matches disk found) :
    survey disk = if found.isEmpty then .ok (.error .noWorkspaces) else .ok (.ok found) := by
  obtain ⟨manifest, globs, root, listed, discovers⟩ := globbed
  unfold Doctor.survey
  rw [root]
  dsimp only
  rw [listed]
  dsimp only
  rw [discovers]

theorem matches_of_survey {disk : Disk} {found : List String} (known : survey disk = .ok (.ok found)) :
    Matches disk found ∧ found ≠ [] := by
  unfold survey at known
  split at known
  · cases known
  · rename_i manifest root
    split at known
    · cases known
    · rename_i globs listed
      split at known
      · cases known
      · rename_i workspaces discovers
        split at known
        · cases known
        · rename_i some
          cases known
          exact ⟨⟨manifest, globs, root, listed, discovers⟩, mt List.isEmpty_iff.mpr some⟩

/-- A run that finds workspaces goes on to check them. -/
theorem leads_run {project : Project} {allowed : Permissions} {now : Engine × Disk}
    {post : Except Failure Outcome → Engine × Disk → Prop}
    (stops : ∀ stop, survey now.2 = .ok (.error stop) →
      post (.ok { fix := allowed.fix, stop := some stop }) now)
    (fails : ∀ fault, survey now.2 = .error fault → post (.error [fault]) now)
    (goesOn : ∀ found, survey now.2 = .ok (.ok found) →
      Leads Disk.alone (checkAll project allowed found) now post) :
    Leads Disk.alone (run project allowed) now post := by
  unfold run
  refine leads_read ?_
  change Leads Disk.alone (match rootManifest now.2 with | .error _ => _ | .ok manifest => _) now post
  unfold survey at stops fails goesOn
  cases root : rootManifest now.2 with
  | error fault =>
      rw [root] at stops
      exact leads_pure (stops .rootManifest rfl)
  | ok manifest =>
      rw [root] at stops fails goesOn
      dsimp only at stops fails goesOn ⊢
      cases listed : manifest.workspaces with
      | none =>
          rw [listed] at stops
          exact leads_pure (stops .noGlobs rfl)
      | some globs =>
          rw [listed] at stops fails goesOn
          dsimp only at stops fails goesOn ⊢
          refine leads_ask ?_
          change Leads Disk.alone (orThrow (now.2.discover globs) >>= _) now post
          cases discovers : now.2.discover globs with
          | error fault =>
              rw [discovers] at fails
              exact leads_throw (fails (.read fault) rfl)
          | ok workspaces =>
              rw [discovers] at stops goesOn
              change Leads Disk.alone (if workspaces.isEmpty then _ else _) now post
              split
              · rename_i none
                exact leads_pure (stops .noWorkspaces (if_pos none))
              · rename_i some
                exact goesOn workspaces (if_neg some)

/-- What makes a project one that can be fixed: workspaces are below the root, and where one has any
file nothing but its name is wrong with its manifest. -/
structure Fixable (disk : Disk) : Prop where
  proper : disk.files.IsProper
  below found : Matches disk found → ∀ workspace ∈ found, workspace ≠ "."
  mendable found : Matches disk found → ∀ workspace ∈ found, disk.hasFiles workspace = true →
    Mendable workspace (heldManifest disk workspace)

section

variable {disk after : Disk} {found : List String} {reports : List WorkspaceReport}

/-- The reports are of the workspaces that were found. -/
theorem AllTidied.paths {origin : Disk} {delete : Bool}
    (tidied : AllTidied origin delete found reports disk) : reports.map (·.path) = found := by
  rw [← List.forall₂_eq_eq_eq, List.forall₂_map_left_iff]
  refine (tidied.imp fun workspace report ends => ?_).flip
  cases ends <;> rfl

theorem AllTidied.referenced {origin : Disk} {delete : Bool}
    (tidied : AllTidied origin delete found reports disk) : (referenced reports).Sublist found := by
  rw [← tidied.paths, Doctor.referenced]
  exact List.Sublist.map _ List.filter_sublist

/-- No workspace is left without a name. -/
theorem AllTidied.named {origin : Disk} {delete : Bool}
    (tidied : AllTidied origin delete found reports disk) :
    (reports.any fun report => report.name.isNone && !(report.redundant || report.removed)) = false := by
  rw [List.any_eq_false]
  intro report member
  obtain ⟨workspace, _, ends⟩ := exists_of_forall₂ tidied member
  cases ends <;> exact Bool.false_ne_true

theorem inside_manifestFile (project : Project) : project.Inside "." manifestFile manifestFile :=
  project.inside_root isName_manifestFile

/-- The root manifest is a file. -/
theorem Matches.readable (globbed : Matches disk found) : disk.Readable manifestFile := by
  obtain ⟨manifest, _, root, _⟩ := globbed
  unfold rootManifest at root
  cases object : objectOf manifestFile (disk.read manifestFile) with
  | error fault =>
      rw [object] at root
      cases root
  | ok document => exact Disk.readable_of_read (objectOf_eq_ok.mp object)

/-- The workspaces that are found are below the root, unless one is the root. -/
theorem Matches.below (globbed : Matches disk found) (notRoot : ∀ workspace ∈ found, workspace ≠ ".") :
    ∀ workspace ∈ found, IsBelow disk.project workspace := by
  obtain ⟨_, globs, _, _, discovers⟩ := globbed
  exact fun workspace member => ⟨(Disk.discovered discovers).2 workspace member, notRoot workspace member⟩

theorem Matches.filled (globbed : Matches disk found) : disk.hasFiles "." = true :=
  Disk.hasFiles_of_readable (inside_manifestFile _) globbed.readable

theorem IsBelow.apartFromRoot {project : Project} {workspace name : String}
    (below : IsBelow project workspace) (named : IsName name) :
    ¬IsDocumentOf project workspace (project.resolved name) := by
  have apart {other : String} : project.resolved name ≠ project.resolved workspace ++ [other] := by
    rw [(project.inside_root named).resolved]
    intro same
    exact below.notRoot (below.relative.injective project.isRelative_here
      (List.append_inj_left' same rfl).symm)
  rintro (same | same)
  · rw [below.manifest.resolved] at same
    exact apart same
  · rw [below.config.resolved] at same
    exact apart same

variable (below : ∀ workspace ∈ found, IsBelow disk.project workspace)

include below

/-- No repair writes the root manifest. -/
theorem manifestFile_apart : ¬IsDocument disk.project found (disk.project.resolved manifestFile) := by
  rintro (same | ⟨workspace, member, document⟩)
  · rw [(inside_manifestFile _).resolved, (inside_configFile _).resolved] at same
    exact absurd (List.append_inj_right' same rfl) (by decide)
  · exact (below workspace member).apartFromRoot (inside_manifestFile disk.project).named document

/-- Repairs of the root take nothing away from the workspaces. -/
theorem AllTidied.later {origin : Disk} {delete : Bool}
    (tidied : AllTidied origin delete found reports disk)
    (mends : Mends (· = disk.project.resolved configFile) disk after) :
    AllTidied origin delete found reports after := by
  have clears : Clears [] found disk after := mends.clears fun place same => Or.inl same
  refine List.forall₂_iff_zip.mpr ⟨tidied.length_eq, fun {workspace report} member => ?_⟩
  have belowThis := below workspace (List.of_mem_zip member).1
  refine ((List.forall₂_iff_zip.mp tidied).2 member).later clears (mends.leaves belowThis ?_)
  rintro place document rfl
  exact belowThis.apartFromRoot (inside_configFile disk.project).named document

/-- The globs match the same workspaces when documents have come to be. -/
theorem Matches.gains {kept : List String} (globbed : Matches disk kept)
    (proper : disk.files.IsProper) (same : after.project = disk.project)
    (gains : FileTree.Gains (IsDocument disk.project found) disk.files after.files) :
    Matches after kept := by
  have enters := Disk.enters_of_hasFiles globbed.filled
  obtain ⟨manifest, globs, root, listed, discovers⟩ := globbed
  have reads := Disk.read_congr (inside_manifestFile _) same enters (enters.gains same gains)
    (gains.apart (manifestFile_apart below))
  have named (place : Place) (name : String)
      (document : IsDocument disk.project found (place ++ [name])) : IsName name := by
    have last {above : Place} {other : String} (placed : place ++ [name] = above ++ [other])
        (isName : IsName other) : IsName name := by
      rw [List.head_eq_of_cons_eq (List.append_inj_right' placed rfl)]
      exact isName
    rcases document with same | ⟨workspace, member, same | same⟩
    · rw [(inside_configFile _).resolved] at same
      exact last same (inside_configFile disk.project).named
    · rw [(below workspace member).manifest.resolved] at same
      exact last same (below workspace member).manifest.named
    · rw [(below workspace member).config.resolved] at same
      exact last same (below workspace member).config.named
  refine ⟨manifest, globs, ?_, listed, ?_⟩
  · unfold rootManifest at root ⊢
    rw [reads]
    exact root
  · rw [Disk.discover_gains same gains proper named]
    exact discovers

/-- The root manifest is there all the time. -/
theorem Clears.filled_root {gone kept : List String} (clears : Clears gone found disk after)
    (left : Matches (disk.without gone) kept) : after.hasFiles "." = true := by
  refine Disk.hasFiles_of_readable (inside_manifestFile _) ?_
  obtain ⟨content, holds⟩ := left.readable
  have same : after.project = (disk.without gone).project := clears.same
  have keeps : FileTree.Keeps (IsDocument disk.project found) (disk.without gone).files after.files :=
    clears.files.keeps
  exact ⟨content, holds.keeps same keeps (manifestFile_apart below)⟩

end

/-- What a run that fixes things leaves of a project, after it has looked for workspaces. -/
structure Fixed (origin : Disk) (delete : Bool) (gone found : List String)
    (reports : List WorkspaceReport) (disk : Disk) : Prop where
  clears : Clears gone found origin disk
  tidied : AllTidied origin delete found reports disk
  root : duplicates reports = [] → RootSound (referenced reports) disk

theorem leads_fixAll (gone : List String) (delete : Bool) {found kept : List String}
    {now : Engine × Disk} (globbed : Matches now.2 found) (below : ∀ workspace ∈ found, workspace ≠ ".")
    (removable : delete = true → Removable gone found now.2)
    (left : Matches (now.2.without gone) kept) :
    Leads Disk.alone (checkAll now.2.project { fix := true, delete } found) now
      (granted fun outcome later => ∃ reports, Fixed now.2 delete gone found reports later.2
        ∧ (outcome.stop = none → duplicates reports = [])) := by
  have isBelow := globbed.below below
  obtain ⟨_, globs, _, _, discovers⟩ := globbed
  have once := (Disk.discovered discovers).1
  unfold checkAll
  refine leads_granted (leads_mendAll once isBelow removable) ?_
  rintro reports middle ⟨clears, tidied⟩
  dsimp only
  rw [tidied.named, Bool.and_false, if_neg (by decide)]
  split
  · rename_i several
    refine leads_value ⟨reports, ⟨clears, tidied, fun distinct => ?_⟩, nofun⟩
    rw [distinct] at several
    cases several
  · rename_i distinct
    refine leads_granted (leads_mendRoot clears.same
      (fun workspace member => (isBelow workspace (tidied.referenced.subset member)).relative)
      (once.sublist tidied.referenced) (clears.filled_root isBelow left)) ?_
    rintro checks later ⟨mends, rootSound⟩
    refine leads_value ⟨reports, ⟨clears.trans (mends.clears fun place same => ?_), ?_, fun _ => rootSound⟩,
      fun _ => by simpa using distinct⟩
    · rw [clears.same]
      exact Or.inl same
    · rw [← clears.same] at isBelow mends
      exact tidied.later isBelow mends

/-- Repairs of manifests that lack a name at most leave workspaces that pass. -/
theorem AllTidied.sound {origin disk : Disk} {found : List String} {reports : List WorkspaceReport}
    (tidied : AllTidied origin false found reports disk)
    (mendable : ∀ workspace ∈ found, origin.hasFiles workspace = true →
      Mendable workspace (heldManifest origin workspace)) : AllSound found reports disk := by
  refine List.forall₂_iff_zip.mpr ⟨tidied.length_eq, fun {workspace report} member => ?_⟩
  have tidiedThis := (List.forall₂_iff_zip.mp tidied).2 member
  have mendableThis := mendable workspace (List.of_mem_zip member).1
  cases tidiedThis with
  | removed allowed _ _ => cases allowed
  | empty _ _ shows_ => exact ⟨_, _, _, _, shows_, .empty⟩
  | mended filled settles configured =>
      obtain ⟨manifest, valid, named⟩ := settles.repaired.valid (mendableThis filled)
      exact ⟨_, _, _, _, settles.shows_, .named valid named configured⟩

/-- A run that fixed things and was not stopped leaves a healthy project. -/
theorem leads_fix {now : Engine × Disk} (fixable : Fixable now.2) :
    Leads Disk.alone (run now.2.project { fix := true }) now
      (granted fun outcome later => outcome.stop = none →
        later.2.project = now.2.project ∧ ∃ found reports, Healthy later.2 found reports) := by
  refine leads_run (fun stop _ => ?_) (fun fault _ => granted_error) fun found surveyed => ?_
  · rintro outcome ⟨rfl⟩ complete
    cases complete
  · obtain ⟨globbed, some⟩ := matches_of_survey surveyed
    have below := fixable.below found globbed
    refine (leads_fixAll [] false globbed below nofun globbed).weaken fun result later ended outcome same complete => ?_
    obtain ⟨reports, fixed, distinct⟩ := ended outcome same
    refine ⟨fixed.clears.same, found, reports, ?_, some, ?_, distinct complete, fixed.root (distinct complete)⟩
    · refine globbed.gains (globbed.below below) fixable.proper fixed.clears.same (fixed.clears.files.gains ?_)
      rintro place ⟨root, none, _⟩
      cases none
    · exact fixed.tidied.sound (fixable.mendable found globbed)

/-! ### Runs that only check -/

section

variable {reports others : List WorkspaceReport}

theorem filter_path_outlines (keep : String × Option String × Bool → Bool)
    (same : reports.map outline = others.map outline) :
    (reports.filter (keep ∘ outline)).map (·.path) = (others.filter (keep ∘ outline)).map (·.path) := by
  have paths (reports : List WorkspaceReport) : (reports.filter (keep ∘ outline)).map (·.path)
      = ((reports.map outline).filter keep).map (·.1) := by
    rw [List.filter_map, List.map_map]
    rfl
  rw [paths, paths, same]

theorem duplicates_outlines (same : reports.map outline = others.map outline) :
    duplicates reports = duplicates others := by
  have names : reports.filterMap nameOf? = others.filterMap nameOf? := by
    have known (reports : List WorkspaceReport) : reports.filterMap nameOf?
        = (reports.map outline).filterMap fun entry => entry.2.1.filter (· != "") := by
      rw [List.filterMap_map]
      rfl
    rw [known, known, same]
  unfold duplicates
  rw [names]
  refine congrArg (fun choose => List.filterMap choose _) (funext fun name => ?_)
  have paths : (reports.filter fun report => nameOf? report == some name).map (·.path)
      = (others.filter fun report => nameOf? report == some name).map (·.path) :=
    filter_path_outlines (fun entry => entry.2.1.filter (· != "") == some name) same
  dsimp only
  rw [paths]

theorem referenced_outlines (same : reports.map outline = others.map outline) :
    referenced reports = referenced others :=
  filter_path_outlines (fun entry => entry.2.1.isSome && entry.2.2) same

end

theorem Matches.unique {disk : Disk} {found others : List String} (globbed : Matches disk found)
    (otherGlobbed : Matches disk others) : others = found := by
  obtain ⟨manifest, globs, root, listed, discovers⟩ := globbed
  obtain ⟨other, otherGlobs, otherRoot, otherListed, otherDiscovers⟩ := otherGlobbed
  cases Except.ok.inj (root.symm.trans otherRoot)
  cases Option.some.inj (listed.symm.trans otherListed)
  exact Except.ok.inj (otherDiscovers.symm.trans discovers)

/-- Sound workspaces are reported as they were, and none of them fails. -/
theorem leads_checkAll {found : List String} {reports : List WorkspaceReport} {now : Engine × Disk}
    (sound : AllSound found reports now.2) (delete : Bool) :
    Leads Disk.alone (forAll found (checkWorkspace { fix := false, delete })) now fun result later =>
      later = now ∧ ∃ again, result = .ok again ∧ again.map outline = reports.map outline
        ∧ ∀ report ∈ again, anyFailed report.checks = false := by
  have reported {workspace : String} (member : workspace ∈ found) :
      ∃ report, Sound workspace report now.2 := by
    induction sound with
    | nil => cases member
    | cons first _ ih =>
        rcases List.mem_cons.mp member with rfl | inRest
        · exact ⟨_, first⟩
        · exact ih inRest
  intro start
  refine meets_forAll_same .none (fun workspace again _ => anyFailed again.checks = false
    ∧ ∃ report, Sound workspace report now.2 ∧ outline again = outline report) False (fun _ => False)
    trivial (fun _ _ => id) (fun _ _ _ => trivial) ?_ ?_ nofun
  · rintro workspace member _ ⟨rfl⟩
    obtain ⟨report, soundReport⟩ := reported member
    refine (meets_checkWorkspace soundReport delete).weaken fun result start later ended => ?_
    refine ⟨ended.1, fun after reached => ?_⟩
    have ends := ended.2 after reached
    cases result with
    | ok again => exact ⟨ends.2, report, soundReport, ends.1⟩
    | error failure => exact ends
  · rintro _ again ⟨rfl⟩ each
    refine ⟨rfl, again, rfl, ?_⟩
    clear reported
    unfold AllSound at sound
    induction each generalizing reports with
    | nil =>
        cases sound
        exact ⟨rfl, nofun⟩
    | cons first _ ih =>
        cases sound with
        | cons firstSound restSound =>
            obtain ⟨passed, report, soundReport, same⟩ := first
            obtain ⟨sames, passes⟩ := ih restSound
            refine ⟨?_, fun report member => ?_⟩
            · rw [List.map_cons, List.map_cons, sames, same, soundReport.outline_eq firstSound]
            · rcases List.mem_cons.mp member with rfl | inRest
              · exact passed
              · exact passes report inRest

/-- A healthy project passes every check of a run that fixes nothing. -/
theorem leads_check {project : Project} {found : List String} {reports : List WorkspaceReport}
    {now : Engine × Disk} (same : now.2.project = project) (healthy : Healthy now.2 found reports)
    (delete : Bool) :
    Leads Disk.alone (run project { fix := false, delete }) now fun result _ =>
      ∃ outcome, result = .ok outcome ∧ outcome.stop = none ∧ outcome.failed = false
        ∧ outcome.exitCode = 0 := by
  have surveyed := healthy.globs.survey
  rw [if_neg (mt List.isEmpty_iff.mp healthy.some)] at surveyed
  refine leads_run (fun stop stopped => ?_) (fun fault failed => ?_) fun others found => ?_
  · cases surveyed.symm.trans stopped
  · cases surveyed.symm.trans failed
  cases surveyed.symm.trans found
  unfold checkAll
  refine (leads_checkAll healthy.workspaces delete).bind ?_ ?_
  · rintro again later ⟨rfl, _, ⟨rfl⟩, outlines, passes⟩
    dsimp only
    rw [duplicates_outlines outlines, healthy.distinct]
    have root := healthy.root
    rw [← referenced_outlines outlines] at root
    refine (leads_checkRoot same root false).bind ?_ ?_
    · rintro checks later ⟨_, _, ⟨rfl⟩, passed⟩
      have allPass : again.any (anyFailed ·.checks) = false := by
        rw [List.any_eq_false]
        exact fun report member => by rw [passes report member]; decide
      have nothingFailed : Outcome.failed { fix := false, workspaces := again, root := some checks }
          = false := by
        rw [Outcome.failed, allPass, Option.map_some, Option.getD_some, passed]
        rfl
      refine leads_pure ⟨_, rfl, rfl, nothingFailed, ?_⟩
      unfold Outcome.exitCode
      dsimp only
      rw [nothingFailed]
      rfl
    · rintro failure later ⟨_, _, ⟨⟩, _⟩
  · rintro failure later ⟨_, _, ⟨⟩, _⟩

/-- Whether a run passes every check. -/
def Outcome.Passes (outcome : Outcome) : Prop :=
  outcome.stop = none ∧ outcome.failed = false ∧ outcome.exitCode = 0

/-- After a run that fixed things and was not stopped, a run that fixes nothing passes every check. -/
theorem fixed_project_passes {disk : Disk} {engine again : Engine} (fixable : Fixable disk)
    {outcome : Outcome} {after : Engine × Disk}
    (finishes : Finishes Disk.alone (run disk.project { fix := true, delete := false }) (engine, disk)
      (.ok outcome) after)
    (complete : outcome.stop = none) (delete : Bool) :
    (∃ result final, Finishes Disk.alone (run disk.project { fix := false, delete }) (again, after.2)
        result final)
      ∧ ∀ result final,
        Finishes Disk.alone (run disk.project { fix := false, delete }) (again, after.2) result final →
        ∃ checked, result = .ok checked ∧ checked.Passes := by
  have started : Fixable (engine, disk).2 := fixable
  obtain ⟨same, found, reports, healthy⟩ := (leads_fix started).finishes finishes outcome rfl complete
  have later : Healthy (again, after.2).2 found reports := healthy
  have sameLater : (again, after.2).2.project = disk.project := same
  exact ⟨⟨_, _, run_finishes _ _ _⟩, fun result final ends =>
    (leads_check sameLater later delete).finishes ends⟩

/-- A project with one workspace, which has a source and a manifest. -/
def singleProject (manifest : String) : Disk where
  project := ⟨"/p"⟩
  files := { entries :=
    [(["p"], .directory), (["p", "package.json"], .file (.text "\x7b\"workspaces\":[\"a\"]\x7d".toList)),
      (["p", "a"], .directory), (["p", "a", "package.json"], .file (.text manifest.toList)),
      (["p", "a", "a.ts"], .file (.text []))] }

theorem matches_of_checks {disk : Disk} {found : List String}
    (checks : ((rootManifest disk).toOption.any fun root => root.workspaces.any fun globs =>
      (disk.discover globs).toOption.any (· == found)) = true) : Matches disk found := by
  obtain ⟨root, valid, listed⟩ := ok_of_any checks
  obtain ⟨globs, given, matched⟩ := Option.any_eq_true _ _ |>.mp listed
  obtain ⟨workspaces, discovers, same⟩ := ok_of_any matched
  exact ⟨root, globs, valid, given, discovers.trans (congrArg Except.ok (eq_of_beq same))⟩

/-- A workspace without a name and without a config is fixed, and then passes. -/
theorem nameless_workspace_fixed : ∃ (disk : Disk) (outcome : Outcome) (after : Engine × Disk),
    Fixable disk ∧ outcome.stop = none
      ∧ Finishes Disk.alone (run disk.project { fix := true, delete := false }) ({}, disk) (.ok outcome)
        after
      ∧ ∀ result final,
        Finishes Disk.alone (run disk.project { fix := false, delete := false }) ({}, after.2) result
          final → ∃ checked, result = .ok checked ∧ checked.Passes := by
  let manifest := "\x7b\"dependencies\":\x7b\"b\":\"*\"\x7d\x7d"
  let disk := singleProject manifest
  have single : Matches disk ["a"] := matches_of_checks (by decide +kernel)
  have fields : ((Manifest.validate (.obj ((heldManifest disk "a").erase "name"))).toOption.any
      fun _ => true) = true := by decide +kernel
  have fixable : Fixable disk := by
    refine ⟨by decide +kernel, fun found globbed => ?_, fun found globbed workspace member _ => ?_⟩
    · rw [single.unique globbed]
      decide
    · rw [single.unique globbed, List.mem_singleton] at member
      subst member
      obtain ⟨valid, validates, _⟩ := ok_of_any fields
      exact ⟨⟨valid, validates⟩, by decide +kernel⟩
  have runs : (((run disk.project { fix := true, delete := false }).run Disk.alone
      ({}, disk)).1.toOption.any (·.stop == none)) = true := by decide +kernel
  obtain ⟨outcome, ends, complete⟩ := ok_of_any runs
  have finishes := run_finishes Disk.alone (run disk.project { fix := true, delete := false }) ({}, disk)
  rw [ends] at finishes
  exact ⟨disk, outcome, _, fixable, eq_of_beq complete, finishes,
    (fixed_project_passes fixable finishes (eq_of_beq complete) false).2⟩

/-- A manifest whose dependencies are no table is only given a name, so that the next run complains
about it. -/
theorem mistyped_manifest_not_fixed : ∃ (disk : Disk) (outcome checked : Outcome)
    (after final : Engine × Disk), disk.files.IsProper
      ∧ (∀ found, Matches disk found → ∀ workspace ∈ found, workspace ≠ ".")
      ∧ Finishes Disk.alone (run disk.project { fix := true, delete := false }) ({}, disk) (.ok outcome)
        after
      ∧ outcome.stop = none
      ∧ Finishes Disk.alone (run disk.project { fix := false, delete := false }) ({}, after.2)
        (.ok checked) final
      ∧ checked.failed = true ∧ checked.exitCode = 1 := by
  let disk := singleProject "\x7b\"name\":\"a\",\"dependencies\":5\x7d"
  have single : Matches disk ["a"] := matches_of_checks (by decide +kernel)
  obtain ⟨fixed, isFixed⟩ : ∃ fixed,
      (run disk.project { fix := true, delete := false }).run Disk.alone ({}, disk) = fixed := ⟨_, rfl⟩
  obtain ⟨done, isDone⟩ : ∃ done,
      (run disk.project { fix := false, delete := false }).run Disk.alone ({}, fixed.2.2) = done :=
    ⟨_, rfl⟩
  obtain ⟨fixes, fails⟩ : (fixed.1.toOption.any (·.stop == none)) = true
      ∧ (done.1.toOption.any fun checked => checked.failed && checked.exitCode == 1) = true := by
    subst isDone isFixed
    decide +kernel
  obtain ⟨outcome, ends, complete⟩ := ok_of_any fixes
  obtain ⟨checked, endsToo, failed⟩ := ok_of_any fails
  rw [Bool.and_eq_true, beq_iff_eq] at failed
  have first := run_finishes Disk.alone (run disk.project { fix := true, delete := false }) ({}, disk)
  rw [isFixed, ends] at first
  have second := run_finishes Disk.alone (run disk.project { fix := false, delete := false })
    ({}, fixed.2.2)
  rw [isDone, endsToo] at second
  refine ⟨disk, outcome, checked, fixed.2, done.2, by decide +kernel, fun found globbed => ?_, first,
    eq_of_beq complete, second, failed⟩
  rw [single.unique globbed]
  decide

end Doctor
end RefSync
