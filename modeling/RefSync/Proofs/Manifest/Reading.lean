/-
What is read of the dependencies that an update wrote. A manifest that was valid is valid
afterwards, and what it declares are the names from before and the missing ones without those
that were dropped. Only what stands under the other spelling of the development dependencies is
read and never dropped.
-/

import RefSync.Proofs.Manifest.Validity

namespace RefSync.Manifest

theorem KeepsValid.otherSpelling {before after : Document} (keeps : KeepsValid before after) :
    otherSpelling after = otherSpelling before := by
  have contained :
      Table.contains after "devDependencies" = Table.contains before "devDependencies" := by
    rw [Bool.eq_iff_iff, Table.contains_iff, Table.contains_iff, keeps.present]
  unfold Manifest.otherSpelling declared table?
  rw [contained, keeps.other]

theorem keepsValid_getD_update (manifest : Document) (missing redundant : List String) :
    KeepsValid manifest ((updateDependencies? manifest missing redundant).getD manifest) := by
  cases made : updateDependencies? manifest missing redundant with
  | none => exact KeepsValid.refl manifest
  | some updated => exact keepsValid_update made

section

variable {manifest : Document} (clean : Document.Clean manifest) {read : Manifest}
  (valid : validate (.obj manifest) = .ok read) {known missing redundant : List String}
  (disjoint : ∀ name ∈ missing, name ∉ redundant) (missingKnown : ∀ name ∈ missing, name ∈ known)
  (redundantKnown : ∀ name ∈ redundant, name ∈ known)

include clean valid disjoint missingKnown redundantKnown

/-- The workspaces that are read after an update. A redundant one is still among them exactly
where the other spelling declares it. -/
theorem mem_workspaceDependencies_update {later : Manifest}
    (laterValid : validate (.obj ((updateDependencies? manifest missing redundant).getD manifest))
      = .ok later) (name : String) :
    name ∈ later.workspaceDependencies known ↔
      (name ∈ read.workspaceDependencies known ∨ name ∈ missing)
        ∧ (name ∈ redundant → name ∈ (otherSpelling manifest).keys) := by
  have adjusted := (adjusted_update clean missing redundant).1
  rw [mem_workspaceDependencies_iff laterValid, mem_workspaceDependencies_iff valid,
    adjusted.declares_iff, (keepsValid_getD_update manifest missing redundant).otherSpelling]
  by_cases dropped : name ∈ redundant
  -- It is not missing either, so that nothing but the other spelling can declare it.
  · have isKnown := redundantKnown name dropped
    have notMissing : name ∉ missing := fun member => disjoint name member dropped
    simp only [dropped, isKnown, notMissing]
    tauto
  · have isKnown := missingKnown name
    simp only [dropped]
    tauto

/-- An update leaves a valid manifest, of which the missing workspaces and those from before are
read without the redundant ones, exactly if the other spelling declares no redundant one. -/
theorem update_is_read :
    ∃ later,
      validate (.obj ((updateDependencies? manifest missing redundant).getD manifest)) = .ok later
        ∧ (∀ name, name ∈ later.workspaceDependencies known ↔
          (name ∈ read.workspaceDependencies known ∨ name ∈ missing)
            ∧ (name ∈ redundant → name ∈ (otherSpelling manifest).keys))
        ∧ ((∀ name, name ∈ later.workspaceDependencies known ↔
            (name ∈ read.workspaceDependencies known ∨ name ∈ missing) ∧ name ∉ redundant)
          ↔ ∀ name ∈ redundant, name ∉ (otherSpelling manifest).keys) := by
  obtain ⟨later, laterValid, _⟩ := (keepsValid_getD_update manifest missing redundant).validate valid
  have reads := mem_workspaceDependencies_update clean valid disjoint missingKnown redundantKnown
    laterValid
  refine ⟨later, laterValid, reads, ?_, ?_⟩
  · intro agree name dropped there
    have wasRead : name ∈ read.workspaceDependencies known :=
      (mem_workspaceDependencies_iff valid known).mpr ⟨redundantKnown name dropped, Or.inr there⟩
    exact ((agree name).mp ((reads name).mpr ⟨Or.inl wasRead, fun _ => there⟩)).2 dropped
  · intro unused name
    rw [reads]
    exact and_congr_right fun _ =>
      ⟨fun spelled dropped => unused name dropped (spelled dropped),
        fun stays dropped => absurd dropped stays⟩

end

theorem other_spelling_is_read :
    let manifest : Document :=
      [("dependencies", .obj [("a", .str "*")]), ("dev_dependencies", .obj [("b", .str "*")])]
    ∃ read later, validate (.obj manifest) = .ok read
      ∧ validate (.obj ((updateDependencies? manifest ["c"] ["a"]).getD manifest)) = .ok later
      ∧ ∀ name, name ∈ later.workspaceDependencies ["a", "b", "c"] ↔
        (name ∈ read.workspaceDependencies ["a", "b", "c"] ∨ name ∈ ["c"]) ∧ name ∉ ["a"] := by
  intro manifest
  have dependencies : Document.Clean [("a", .str "*")] := Document.clean_empty.set "a" (.str "*")
  have other : Document.Clean [("b", .str "*")] := Document.clean_empty.set "b" (.str "*")
  have clean : Document.Clean manifest :=
    (Document.clean_empty.set "dependencies" (Document.clean_obj.mpr dependencies)).set
      "dev_dependencies" (Document.clean_obj.mpr other)
  have valid : validate (.obj manifest) = .ok ⟨none, [("a", "*")], [("b", "*")], none, []⟩ := rfl
  have disjoint : ∀ name ∈ ["c"], name ∉ ["a"] := by decide
  have missingKnown : ∀ name ∈ ["c"], name ∈ ["a", "b", "c"] := by decide
  obtain ⟨later, laterValid, _, agrees⟩ :=
    update_is_read clean valid disjoint missingKnown (by decide)
  exact ⟨_, later, valid, laterValid, agrees.mpr (by decide)⟩

theorem other_spelling_is_not_dropped :
    let manifest : Document :=
      [("name", .str "a"), ("dependencies", .obj [("b", .str "*")]),
        ("dev_dependencies", .obj [("b", .str "*")])]
    let updated : Document :=
      [("name", .str "a"), ("dependencies", .obj []), ("dev_dependencies", .obj [("b", .str "*")])]
    updateDependencies? manifest [] ["b"] = some updated
      ∧ ∃ read later, validate (.obj manifest) = .ok read ∧ validate (.obj updated) = .ok later
        ∧ ¬∀ name, name ∈ later.workspaceDependencies ["b"] ↔
          (name ∈ read.workspaceDependencies ["b"] ∨ name ∈ []) ∧ name ∉ ["b"] := by
  refine ⟨rfl, ⟨some "a", [("b", "*")], [("b", "*")], none, []⟩, ⟨some "a", [], [("b", "*")], none, []⟩,
    rfl, rfl, fun agrees => ?_⟩
  exact absurd ((agrees "b").mp (by decide)).2 (by decide)

end RefSync.Manifest
