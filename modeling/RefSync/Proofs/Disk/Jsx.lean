/-
Whether there is JSX source below a directory. A config that is made at start is told by what is
named so, a directory too; one that is made as a fix is told by the sources, and a name that is
nothing but the suffix has none.
-/

import RefSync.Doctor.Run
import RefSync.Proofs.Disk.Scanning

namespace RefSync.Disk

variable {disk : Disk} {directory : String} {way : List String} {entry : Entry}

def isJsxWay (way : List String) : Bool :=
  way.getLast?.any (·.endsWith ".tsx")

/-- Something below a directory that is named like JSX source and not ignored. -/
structure NamesJsx (disk : Disk) (directory : String) (way : List String) (entry : Entry) :
    Prop where
  held : (way, entry) ∈ disk.entriesBelow directory
  named : isJsxWay way = true
  opened : IsOpenWay way

/-- A file named like that whose name is more than the suffix. -/
def HoldsJsx (disk : Disk) (directory : String) : Prop :=
  ∃ way content, disk.NamesJsx directory way (.file content) ∧ way.getLast? ≠ some ".tsx"

theorem isOpenWay_iff : way.any ignoredDirectories.contains = false ↔ IsOpenWay way := by
  rw [List.any_eq_false]
  exact forall₂_congr fun part _ => not_congr List.contains_iff_mem

/-- The look that is taken at start finds whatever has the name. -/
theorem hasJsx_iff {jsx : Bool} (looked : disk.hasJsx directory = .ok jsx) :
    jsx = true ↔ ∃ way entry, disk.NamesJsx directory way entry := by
  unfold hasJsx at looked
  cases there : disk.isPresent directory with
  | error fault =>
      rw [there] at looked
      cases looked
  | ok present =>
      rw [there] at looked
      cases looked
      rw [List.any_eq_true, Prod.exists]
      refine exists₂_congr fun way entry => ?_
      rw [Bool.and_eq_true, Bool.not_eq_true', isOpenWay_iff]
      exact ⟨fun ⟨held, named, opened⟩ => ⟨held, named, opened⟩,
        fun ⟨held, named, opened⟩ => ⟨held, named, opened⟩⟩

theorem endsWith_tsx_of_ignored {name : String} (ignored : name ∈ ignoredDirectories) :
    name.endsWith ".tsx" = false := by
  revert name
  decide +kernel

theorem hasJsxSuffix_iff :
    Doctor.hasJsxSuffix way = true ↔ isJsxWay way = true ∧ way.getLast? ≠ some ".tsx" := by
  unfold Doctor.hasJsxSuffix isJsxWay
  cases way.getLast? with
  | none => exact ⟨nofun, fun both => absurd both.1 Bool.false_ne_true⟩
  | some name =>
      rw [Option.any_some, Option.any_some, Bool.and_eq_true, bne_iff_ne, ne_eq, ne_eq,
        Option.some.injEq]

/-- What is named like JSX source is source, and its own name is not ignored. -/
theorem isOpenWay_of_isJsxWay (named : isJsxWay way = true) (above : IsOpenWay way.dropLast) :
    IsOpenWay way := by
  obtain ⟨name, last, suffixed⟩ := (Option.any_eq_true _ _).mp named
  intro part member
  rw [← List.dropLast_append_getLast? name last, List.mem_append, List.mem_singleton] at member
  rcases member with inside | rfl
  · exact above part inside
  · intro ignored
    rw [endsWith_tsx_of_ignored ignored] at suffixed
    cases suffixed

/-- The sources have the suffix of JSX exactly when there is a file for it. -/
theorem sources_any_hasJsxSuffix : (disk.sources directory).any Doctor.hasJsxSuffix = true
    ↔ disk.HoldsJsx directory := by
  rw [List.any_eq_true]
  constructor
  · rintro ⟨way, member, suffixed⟩
    obtain ⟨named, more⟩ := hasJsxSuffix_iff.mp suffixed
    have found := (List.mem_filter.mp (mem_sortBy.mp member)).1
    obtain ⟨entry, held, notDirectory, above⟩ := mem_filesBelow.mp found
    cases entry with
    | directory => exact absurd rfl notDirectory
    | file content => exact ⟨way, content, ⟨held, named, isOpenWay_of_isJsxWay named above⟩, more⟩
  · rintro ⟨way, content, ⟨held, named, opened⟩, more⟩
    have above : IsOpenWay way.dropLast := fun part member =>
      opened part (List.dropLast_subset way member)
    have source : isSource way = true := by
      obtain ⟨name, last, suffixed⟩ := (Option.any_eq_true _ _).mp named
      refine (Option.any_eq_true _ _).mpr ⟨name, last, ?_⟩
      rw [suffixed, Bool.or_true]
    refine ⟨way, mem_sortBy.mpr (List.mem_filter.mpr ⟨?_, source⟩), hasJsxSuffix_iff.mpr ⟨named, more⟩⟩
    exact mem_filesBelow.mpr ⟨.file content, held, nofun, above⟩

/-- The two looks agree exactly when, if anything is named like JSX source, some file has the
suffix. What is seen among the sources is seen at start too. -/
theorem looks_for_jsx_agree
    (short : disk.files.walk (disk.project.absolute directory) ≠ .error .tooLong) :
    ∃ jsx, disk.hasJsx directory = .ok jsx
      ∧ ((disk.sources directory).any Doctor.hasJsxSuffix = true → jsx = true)
      ∧ (jsx = (disk.sources directory).any Doctor.hasJsxSuffix
        ↔ ((∃ way entry, disk.NamesJsx directory way entry) → disk.HoldsJsx directory)) := by
  have answered : ∃ jsx, disk.hasJsx directory = .ok jsx := by
    unfold hasJsx isPresent locate
    cases walked : disk.files.walk (disk.project.absolute directory) with
    | ok place => exact ⟨_, rfl⟩
    | error fault =>
        cases fault with
        | tooLong => exact absurd walked short
        | _ => exact ⟨_, rfl⟩
  obtain ⟨jsx, looked⟩ := answered
  have seen : (disk.sources directory).any Doctor.hasJsxSuffix = true → jsx = true := by
    intro suffixed
    obtain ⟨way, content, names, _⟩ := sources_any_hasJsxSuffix.mp suffixed
    exact (hasJsx_iff looked).mpr ⟨way, .file content, names⟩
  refine ⟨jsx, looked, seen, ?_⟩
  rw [← hasJsx_iff looked, ← sources_any_hasJsxSuffix, Bool.eq_iff_iff]
  exact ⟨fun both => both.mp, fun sourced => ⟨sourced, seen⟩⟩

/-- A workspace with a JSX source in a directory that is named like one, and in an ignored one. -/
def nestedJsx : Disk where
  project := ⟨"/p"⟩
  files := ⟨[(["p"], .directory), (["p", "a"], .directory), (["p", "a", "ui.tsx"], .directory),
    (["p", "a", "ui.tsx", "view.tsx"], .file (.text [])),
    (["p", "a", "node_modules"], .directory),
    (["p", "a", "node_modules", "view.tsx"], .file (.text []))]⟩

theorem nested_jsx_is_seen : nestedJsx.hasJsx "a" = .ok true
    ∧ (nestedJsx.sources "a").any Doctor.hasJsxSuffix = true := by
  have short : nestedJsx.files.walk (nestedJsx.project.absolute "a") ≠ .error .tooLong := by
    decide +kernel
  obtain ⟨jsx, looked, seen, agree⟩ := looks_for_jsx_agree short
  have holds : nestedJsx.HoldsJsx "a" := by
    refine ⟨["ui.tsx", "view.tsx"], .text [], ⟨?_, ?_, isOpenWay_iff.mp ?_⟩, ?_⟩ <;> decide +kernel
  have sourced := agree.mpr fun _ => holds
  rw [sources_any_hasJsxSuffix.mpr holds] at sourced ⊢
  exact ⟨sourced ▸ looked, rfl⟩

/-- A workspace with a directory that is named like JSX source, and no source. -/
def jsxDirectory : Disk where
  project := ⟨"/p"⟩
  files := ⟨[(["p"], .directory), (["p", "a"], .directory), (["p", "a", "ui.tsx"], .directory)]⟩

/-- The directory counts as JSX source, and no source has the suffix. -/
theorem directory_counts_as_jsx : jsxDirectory.hasJsx "a" = .ok true
    ∧ (jsxDirectory.sources "a").any Doctor.hasJsxSuffix = false := by
  decide +kernel

end RefSync.Disk
