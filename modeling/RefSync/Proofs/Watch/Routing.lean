/-
Which document an event is about. A path is followed piece by piece, and two paths that end in one
place are spellings of one document; whatever the spelling, the engine takes a path for the watched
document in its place, for no other, and for none where there is none. The workspace of the document
is what the handlers get from the normalised path.
-/

import Mathlib.Data.Set.Basic
import RefSync.Proofs.Watch.Dispatch
import RefSync.Proofs.Workspace.Plain

namespace RefSync

open Path

/-! ### Spellings -/

/-- Where one comes to from the top of all, going from piece to piece. -/
inductive Path.Arrives : List String → Place → Prop
  | top : Arrives [] []
  | stays {pieces : List String} {place : Place} {piece : String} :
      Arrives pieces place → piece = "" ∨ piece = "." → Arrives (pieces ++ [piece]) place
  | climbs {pieces : List String} {place : Place} :
      Arrives pieces place → Arrives (pieces ++ [".."]) place.dropLast
  | enters {pieces : List String} {place : Place} {name : String} :
      Arrives pieces place → name ∉ ["", ".", ".."] → Arrives (pieces ++ [name]) (place ++ [name])

/-- Whether a piece between slashes says where to go. -/
def Path.moves (piece : String) : Bool :=
  piece != "" && piece != "."

theorem Path.arrives_iff {pieces : List String} {place : Place} :
    Arrives pieces place ↔ resolve true (pieces.filter moves) = place := by
  constructor
  · intro arrives
    induction arrives with
    | top => rfl
    | @stays pieces place piece _ idle ih =>
        have stays : ¬moves piece = true := by
          rcases idle with rfl | rfl <;> decide
        rw [List.filter_append, List.filter_cons_of_neg stays, List.filter_nil, List.append_nil, ih]
    | climbs _ ih =>
        rw [List.filter_append, List.filter_cons_of_pos (by decide), List.filter_nil,
          resolve_append_up, ih]
    | @enters pieces place name _ named ih =>
        simp only [List.mem_cons, List.not_mem_nil, or_false, not_or] at named
        have goes : moves name = true := by
          rw [moves, Bool.and_eq_true, bne_iff_ne, bne_iff_ne]
          exact ⟨named.1, named.2.1⟩
        rw [List.filter_append, List.filter_cons_of_pos goes, List.filter_nil,
          resolve_append_name _ named.2.2, ih]
  · rintro rfl
    induction pieces using List.reverseRecOn with
    | nil => exact Arrives.top
    | append_singleton front piece ih =>
        rw [List.filter_append]
        by_cases goes : moves piece = true
        · rw [List.filter_cons_of_pos goes, List.filter_nil]
          rw [moves, Bool.and_eq_true, bne_iff_ne, bne_iff_ne] at goes
          by_cases up : piece = ".."
          · rw [up, resolve_append_up]
            exact ih.climbs
          · rw [resolve_append_name _ up]
            exact ih.enters (by simp [goes.1, goes.2, up])
        · rw [List.filter_cons_of_neg goes, List.filter_nil, List.append_nil]
          refine ih.stays ?_
          rw [moves, Bool.and_eq_true, bne_iff_ne, bne_iff_ne] at goes
          by_cases empty : piece = ""
          · exact Or.inl empty
          · exact Or.inr (not_not.mp fun other => goes ⟨empty, other⟩)

/-- What stands between the slashes of a path. -/
def Path.slashSeparated (path : String) : List String :=
  (path.toList.splitOn '/').map String.ofList

theorem Path.filter_slashSeparated (path : String) : (slashSeparated path).filter moves = parts path := by
  have same : (moves ∘ String.ofList) = fun piece => piece != [] && piece != ['.'] := by
    funext piece
    have empty : (String.ofList piece = "") = (piece = []) := by
      rw [← String.toList_inj, String.toList_ofList]
      rfl
    have here : (String.ofList piece = ".") = (piece = ['.']) := by
      rw [← String.toList_inj, String.toList_ofList]
      rfl
    simp only [Function.comp_apply, moves, bne, beq_eq_decide, empty, here]
  rw [slashSeparated, List.filter_map, same, parts, pieces_eq_splitOn]

namespace Project

/-- Whether a path, from the top or from the root of a project, leads to a place. -/
def Denotes (project : Project) (path : String) (place : Place) : Prop :=
  Arrives ((if isAbsolute path then [] else slashSeparated project.root) ++ slashSeparated path) place

/-- Whether two paths are spellings of one. -/
def SamePlace (project : Project) (path other : String) : Prop :=
  ∃ place, project.Denotes path place ∧ project.Denotes other place

variable {project : Project} {path other : String}

theorem denotes_iff {place : Place} : project.Denotes path place ↔ project.resolved path = place := by
  rw [Denotes, arrives_iff, List.filter_append, filter_slashSeparated, resolved_eq, parts_absolute]
  split
  · exact Iff.rfl
  · rw [filter_slashSeparated]

theorem samePlace_iff : project.SamePlace path other ↔ project.resolved path = project.resolved other := by
  simp only [SamePlace, denotes_iff]
  constructor
  · rintro ⟨place, own, others⟩
    exact own.trans others.symm
  · exact fun same => ⟨_, rfl, same.symm⟩

/-- A plain path is what the spellings of its place look like from the root. -/
theorem samePlace_iff_relative (plain : IsPlain other) :
    project.SamePlace path other ↔ project.relative path = other := by
  rw [samePlace_iff]
  constructor
  · intro same
    rw [Project.relative, same]
    exact plain.relative project
  · rintro rfl
    exact (project.resolved_relative path).symm

end Project

namespace Watch

/-! ### Documents -/

/-- What an event may be about. -/
inductive Subject where
  | rootManifest
  | manifest (workspace : String)
  | config (workspace : String)
  | artifact (workspace : String)

namespace Subject

def kind : Subject → DocumentKind
  | rootManifest => .rootManifest
  | manifest _ => .workspaceManifest
  | config _ => .workspaceConfig
  | artifact _ => .artifact

/-- Where the document is, from the root. -/
def path : Subject → String
  | rootManifest => manifestFile
  | manifest workspace => Workspace.manifestPath workspace
  | config workspace => Workspace.configPath workspace
  | artifact workspace => Workspace.artifactPath workspace

/-- Whether the document counts where some workspaces are watched, and the artifacts of some. -/
def IsWatched (workspaces observed : Set String) : Subject → Prop
  | rootManifest => True
  | manifest workspace => workspace ∈ workspaces
  | config workspace => workspace ∈ workspaces
  | artifact workspace => workspace ∈ observed

/-- Whether the handlers of such a document get its workspace from a path. -/
def IsRecovered (path : String) : Subject → Prop
  | rootManifest => True
  | manifest workspace => Workspace.ofDocument path = workspace
  | config workspace => Workspace.ofDocument path = workspace
  | artifact workspace => Workspace.ofArtifact path = workspace

end Subject

end Watch

/-- What a registry watches: the manifests of some workspaces below the root, and the artifacts of
some of these. -/
structure Registry.Observes (registry : Registry) (workspaces observed : Set String) : Prop where
  below : ∀ workspace ∈ workspaces, IsBelowRoot workspace
  among : observed ⊆ workspaces
  manifests : ∀ path, path ∈ registry.manifests
    ↔ ∃ workspace ∈ workspaces, Workspace.manifestPath workspace = path
  artifacts : ∀ path, path ∈ registry.artifacts
    ↔ ∃ workspace ∈ observed, Workspace.artifactPath workspace = path

namespace Watch

section

variable {registry : Registry} {workspaces observed : Set String}
  (observes : registry.Observes workspaces observed)

include observes

namespace Subject

theorem plain {subject : Subject} (watched : subject.IsWatched workspaces observed) :
    IsPlain subject.path := by
  have document {workspace name : String} (member : workspace ∈ workspaces) (named : IsName name) :
      IsPlain (workspace ++ "/" ++ name) :=
    (observes.below workspace member).plain.slash (observes.below workspace member).path.notRoot named
  cases subject with
  | rootManifest =>
      exact ⟨show ofParts (parts manifestFile) = manifestFile by decide +kernel,
        show ".." ∉ parts manifestFile by decide +kernel⟩
  | manifest workspace =>
      have stem := (observes.below workspace watched).plain.spelled.stem
      rw [path, Workspace.manifestPath_of_stem stem]
      exact document watched isName_manifestFile
  | config workspace =>
      have stem := (observes.below workspace watched).plain.spelled.stem
      rw [path, Workspace.configPath_of_stem stem]
      exact document watched isName_configFile
  | artifact workspace =>
      have member := observes.among watched
      have stem := (observes.below workspace member).plain.spelled.stem
      rw [path, Workspace.artifactPath_of_stem stem]
      exact (document member isName_artifactDirectory).slash
        (slash_ne_here _ isName_artifactDirectory.component) isName_artifactFile

theorem isRecovered_path {subject : Subject} (watched : subject.IsWatched workspaces observed) :
    subject.IsRecovered subject.path := by
  cases subject with
  | rootManifest => trivial
  | manifest workspace =>
      exact Workspace.ofDocument_manifestPath (observes.below workspace watched).plain.spelled.stem
  | config workspace =>
      exact Workspace.ofDocument_configPath (observes.below workspace watched).plain.spelled.stem
  | artifact workspace =>
      exact Workspace.ofArtifact_artifactPath
        (observes.below workspace (observes.among watched)).plain.spelled.stem

end Subject

theorem baseName_manifest {path : String} (member : path ∈ registry.manifests) :
    baseName path = manifestFile := by
  obtain ⟨workspace, watched, rfl⟩ := (observes.manifests path).mp member
  exact Workspace.baseName_manifestPath (observes.below workspace watched).plain.spelled.stem

theorem baseName_artifact {path : String} (member : path ∈ registry.artifacts) :
    baseName path = Config.artifactFile := by
  obtain ⟨workspace, watched, rfl⟩ := (observes.artifacts path).mp member
  exact Workspace.baseName_artifactPath
    (observes.below workspace (observes.among watched)).plain.spelled.stem

/-! ### Classification -/

/-- What has another name is no manifest. -/
theorem not_manifest {path : String} (other : baseName path ≠ manifestFile) :
    path ≠ manifestFile ∧ path ∉ registry.manifests := by
  refine ⟨?_, fun member => other (baseName_manifest observes member)⟩
  rintro rfl
  exact other (baseName_of_no_slash (by decide))

/-- A watched document is taken for what it is. -/
theorem classifyRelative_path {subject : Subject} (watched : subject.IsWatched workspaces observed) :
    classifyRelative registry subject.path = some subject.kind := by
  cases subject with
  | rootManifest => exact if_pos (beq_self_eq_true manifestFile)
  | manifest workspace =>
      have stem := (observes.below workspace watched).plain.spelled.stem
      have member := (observes.manifests _).mpr ⟨workspace, watched, rfl⟩
      change classifyRelative registry (Workspace.manifestPath workspace) = some .workspaceManifest
      rw [classifyRelative, if_neg (mt eq_of_beq (Workspace.manifestPath_ne_root stem)),
        if_pos (List.contains_iff_mem.mpr member)]
  | config workspace =>
      have stem := (observes.below workspace watched).plain.spelled.stem
      have base := Workspace.baseName_configPath stem
      have other : baseName (Workspace.configPath workspace) ≠ manifestFile := by
        rw [base]
        decide
      obtain ⟨notRoot, notManifest⟩ := not_manifest observes other
      have notArtifact : Workspace.configPath workspace ∉ registry.artifacts := fun member =>
        absurd (base.symm.trans (baseName_artifact observes member)) (by decide)
      have member := (observes.manifests _).mpr ⟨workspace, watched, rfl⟩
      change classifyRelative registry (Workspace.configPath workspace) = some .workspaceConfig
      rw [classifyRelative, if_neg (mt eq_of_beq notRoot),
        if_neg (mt List.contains_iff_mem.mp notManifest),
        if_neg (mt List.contains_iff_mem.mp notArtifact), base, Workspace.ofDocument_configPath stem,
        List.contains_iff_mem.mpr member]
      rfl
  | artifact workspace =>
      have stem := (observes.below workspace (observes.among watched)).plain.spelled.stem
      have base := Workspace.baseName_artifactPath stem
      have other : baseName (Workspace.artifactPath workspace) ≠ manifestFile := by
        rw [base]
        decide
      obtain ⟨notRoot, notManifest⟩ := not_manifest observes other
      have member := (observes.artifacts _).mpr ⟨workspace, watched, rfl⟩
      change classifyRelative registry (Workspace.artifactPath workspace) = some .artifact
      rw [classifyRelative, if_neg (mt eq_of_beq notRoot),
        if_neg (mt List.contains_iff_mem.mp notManifest), if_pos (List.contains_iff_mem.mpr member)]

/-- Whatever is taken for a document is one that is watched. -/
theorem exists_subject {path : String} (spelled : IsSpelled path) {kind : DocumentKind}
    (classified : classifyRelative registry path = some kind) :
    ∃ subject : Subject, subject.kind = kind ∧ subject.IsWatched workspaces observed
      ∧ subject.path = path := by
  have told := classifyRelative_eq_some classified
  cases kind with
  | rootManifest => exact ⟨.rootManifest, rfl, trivial, told.symm⟩
  | workspaceManifest =>
      obtain ⟨workspace, watched, same⟩ := (observes.manifests path).mp told
      exact ⟨.manifest workspace, rfl, watched, same⟩
  | artifact =>
      obtain ⟨workspace, watched, same⟩ := (observes.artifacts path).mp told
      exact ⟨.artifact workspace, rfl, watched, same⟩
  | workspaceConfig =>
      obtain ⟨base, member⟩ := told
      obtain ⟨workspace, watched, same⟩ := (observes.manifests _).mp member
      have stem := (observes.below workspace watched).plain.spelled.stem
      have above : IsStem (Workspace.ofDocument path) := by
        refine spelled.directory.resolve_left fun top => Workspace.manifestPath_ne_root stem ?_
        rw [same, Workspace.ofDocument, top]
        decide
      obtain rfl := Workspace.manifestPath_injective stem above same
      exact ⟨.config _, rfl, watched, (Workspace.configPath_ofDocument spelled above base).symm⟩

theorem subject_eq_of_path {one other : Subject} (oneWatched : one.IsWatched workspaces observed)
    (otherWatched : other.IsWatched workspaces observed) (same : one.path = other.path) :
    one = other := by
  have kinds := classifyRelative_path observes oneWatched
  rw [same, classifyRelative_path observes otherWatched, Option.some.injEq] at kinds
  have own := Subject.isRecovered_path observes oneWatched
  have others := Subject.isRecovered_path observes otherWatched
  rw [same] at own
  cases one <;> cases other <;> cases kinds
  · rfl
  · exact congrArg Subject.manifest (Eq.trans (Eq.symm own) others)
  · exact congrArg Subject.config (Eq.trans (Eq.symm own) others)
  · exact congrArg Subject.artifact (Eq.trans (Eq.symm own) others)

/-- Whatever its spelling, a path is classified as the watched document in its place, and as nothing
if there is none; no two documents are in one place, and the handlers of a document get its workspace
from the normalised path. -/
theorem classification_follows_places (project : Project) (path : String) :
    (∀ kind, classify project registry path = some kind
        ↔ ∃ subject : Subject, subject.kind = kind ∧ subject.IsWatched workspaces observed
          ∧ project.SamePlace path subject.path)
      ∧ (classify project registry path = none
        ↔ ∀ subject : Subject, subject.IsWatched workspaces observed →
          ¬project.SamePlace path subject.path)
      ∧ (∀ one other : Subject, one.IsWatched workspaces observed → other.IsWatched workspaces observed →
        project.SamePlace path one.path → project.SamePlace path other.path → one = other)
      ∧ (∀ subject : Subject, subject.IsWatched workspaces observed →
        project.SamePlace path subject.path →
        project.relative path = subject.path ∧ subject.IsRecovered (project.relative path)) := by
  have normalised {subject : Subject} (watched : subject.IsWatched workspaces observed) :
      project.SamePlace path subject.path ↔ project.relative path = subject.path :=
    Project.samePlace_iff_relative (Subject.plain observes watched)
  have some_iff (kind : DocumentKind) : classify project registry path = some kind
      ↔ ∃ subject : Subject, subject.kind = kind ∧ subject.IsWatched workspaces observed
        ∧ project.SamePlace path subject.path := by
    constructor
    · intro classified
      obtain ⟨subject, same, watched, place⟩ :=
        exists_subject observes (project.relative_spelled path) classified
      exact ⟨subject, same, watched, (normalised watched).mpr place.symm⟩
    · rintro ⟨subject, rfl, watched, place⟩
      rw [classify, (normalised watched).mp place]
      exact classifyRelative_path observes watched
  refine ⟨some_iff, ?_, ?_, ?_⟩
  · rw [Option.eq_none_iff_forall_ne_some]
    constructor
    · exact fun nothing subject watched place =>
        nothing subject.kind ((some_iff subject.kind).mpr ⟨subject, rfl, watched, place⟩)
    · intro nothing kind classified
      obtain ⟨subject, _, watched, place⟩ := (some_iff kind).mp classified
      exact nothing subject watched place
  · intro one other oneWatched otherWatched onePlace otherPlace
    exact subject_eq_of_path observes oneWatched otherWatched
      (((normalised oneWatched).mp onePlace).symm.trans ((normalised otherWatched).mp otherPlace))
  · intro subject watched place
    have same := (normalised watched).mp place
    exact ⟨same, same ▸ Subject.isRecovered_path observes watched⟩

end

/-- Two workspaces, one inside the other, and the artifact of the outer one. -/
def nestedWatch : Registry :=
  { manifests := ["packages/a/package.json", "packages/a/inner/package.json"]
    artifacts := ["packages/a/.ts/tsconfig.tsbuildinfo"] }

theorem observes_nestedWatch :
    nestedWatch.Observes {"packages/a", "packages/a/inner"} {"packages/a"} where
  below := by
    intro workspace member
    rcases member with rfl | rfl <;> decide +kernel
  among := fun _ member => Or.inl member
  manifests := by
    have outer : Workspace.manifestPath "packages/a" = "packages/a/package.json" := by decide +kernel
    have inner : Workspace.manifestPath "packages/a/inner" = "packages/a/inner/package.json" := by
      decide +kernel
    intro path
    simp [nestedWatch, outer, inner, eq_comm]
  artifacts := by
    have outer : Workspace.artifactPath "packages/a" = "packages/a/.ts/tsconfig.tsbuildinfo" := by
      decide +kernel
    intro path
    simp [nestedWatch, outer, eq_comm]

/-- The config of the inner one, by a path from the top that goes astray on its way. -/
theorem inner_config_is_found :
    nestedWatch.Observes {"packages/a", "packages/a/inner"} {"packages/a"}
      ∧ classify ⟨"/srv/../repo"⟩ nestedWatch "/repo//packages/./a/src/../inner/tsconfig.json"
        = some .workspaceConfig
      ∧ Workspace.ofDocument
        ((Project.mk "/srv/../repo").relative "/repo//packages/./a/src/../inner/tsconfig.json")
          = "packages/a/inner" := by
  have watched : (Subject.config "packages/a/inner").IsWatched
      {"packages/a", "packages/a/inner"} {"packages/a"} := Or.inr rfl
  have place : (Project.mk "/srv/../repo").SamePlace "/repo//packages/./a/src/../inner/tsconfig.json"
      (Subject.config "packages/a/inner").path :=
    Project.samePlace_iff.mpr (by decide +kernel)
  obtain ⟨some_iff, _, _, recovers⟩ := classification_follows_places observes_nestedWatch
    ⟨"/srv/../repo"⟩ "/repo//packages/./a/src/../inner/tsconfig.json"
  exact ⟨observes_nestedWatch, (some_iff .workspaceConfig).mpr ⟨_, rfl, watched, place⟩,
    (recovers _ watched place).2⟩

end Watch
end RefSync
