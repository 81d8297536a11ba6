/-
Trees that gain files. Where files come to be in some places, and files there become others, the
directories are the same, and so is every way that leads to one.
-/

import RefSync.Proofs.FileTree

namespace RefSync.FileTree

open Path

variable {tree : FileTree}

/-- Whether nothing is different but that some places hold files, where there was no directory. -/
def Gains (own : Place → Prop) (before after : FileTree) : Prop :=
  ∀ place, after.get? place = before.get? place ∨ own place ∧ before.isDirectory place = false
    ∧ ∃ content, after.get? place = some (.file content)

section

variable {own : Place → Prop} {before after : FileTree}

theorem Gains.refl (own : Place → Prop) (tree : FileTree) : Gains own tree tree :=
  fun _ => Or.inl rfl

theorem Gains.isDirectory (gains : Gains own before after) (place : Place) :
    after.isDirectory place = before.isDirectory place := by
  rcases gains place with same | ⟨_, free, content, found⟩
  · rw [FileTree.isDirectory, FileTree.isDirectory, same]
  · rw [free, FileTree.isDirectory, found]
    rfl

theorem Gains.trans {between : FileTree} (first : Gains own before between)
    (second : Gains own between after) : Gains own before after := by
  intro place
  rcases second place with same | ⟨mine, free, found⟩
  · rw [same]
    exact first place
  · exact Or.inr ⟨mine, first.isDirectory place ▸ free, found⟩

theorem Gains.weaken {more : Place → Prop} (gains : Gains own before after)
    (wider : ∀ place, own place → more place) : Gains more before after :=
  fun place => (gains place).imp_right fun ⟨mine, held⟩ => ⟨wider place mine, held⟩

theorem Gains.apart {place : Place} (gains : Gains own before after) (apart : ¬own place) :
    after.get? place = before.get? place :=
  (gains place).resolve_right fun gained => apart gained.1

theorem Gains.keeps (gains : Gains own before after) : Keeps own before after := by
  intro place entry found
  rcases gains place with same | ⟨mine, free, content, there⟩
  · exact ⟨entry, same.trans found, fun _ => rfl⟩
  · refine ⟨_, there, fun kept => ?_⟩
    rcases kept with directory | elsewhere
    · rw [FileTree.isDirectory, found, directory] at free
      cases free
    · exact absurd mine elsewhere

theorem gains_put {place : Place} (mine : own place) (free : tree.isDirectory place = false)
    (content : Content) : Gains own tree (tree.put place (.file content)) := by
  have inside : place ≠ [] := by
    rintro rfl
    cases free
  intro other
  by_cases same : other = place
  · rw [same]
    exact Or.inr ⟨mine, free, content, (get?_put _ _ _ _ inside).trans (if_pos rfl)⟩
  · cases other with
    | nil => exact Or.inl rfl
    | cons first rest =>
        exact Or.inl ((get?_put _ _ _ _ (List.cons_ne_nil first rest)).trans (if_neg same))

/-! ### Ways to directories -/

/-- The last of some components is looked for in a directory. -/
theorem isDirectory_of_walkFrom {here middle place : Place} {first rest : List String}
    (walked : tree.walkFrom here (first ++ rest) = .ok place)
    (directory : tree.isDirectory place = true) (walkedFirst : tree.walkFrom here first = .ok middle) :
    tree.isDirectory middle = true := by
  rw [walkFrom_goesOn walkedFirst] at walked
  cases rest with
  | nil =>
      cases walked
      exact directory
  | cons part others => exact (walkFrom_cons walked).1

/-- A way to a directory leads there in the tree that was before as well. -/
theorem Gains.walkFrom {here place : Place} {components : List String} (gains : Gains own before after)
    (walked : after.walkFrom here components = .ok place) (directory : after.isDirectory place = true) :
    before.walkFrom here components = .ok place := by
  induction components generalizing here with
  | nil => exact walked
  | cons part rest ih =>
      obtain ⟨entered, ⟨rfl, goesOn⟩ | ⟨named, short, _, goesOn⟩⟩ := walkFrom_cons walked
      · rw [walkFrom_parent (gains.isDirectory here ▸ entered)]
        exact ih goesOn
      · have below : after.isDirectory (here ++ [part]) = true :=
          @isDirectory_of_walkFrom after (here ++ [part]) _ place [] rest goesOn directory rfl
        rw [gains.isDirectory] at below
        rw [walkFrom_child (gains.isDirectory here ▸ entered) named short (by rw [eq_of_beq below]; rfl)]
        exact ih goesOn

theorem Gains.walk {path : String} {place : Place} (gains : Gains own before after)
    (walked : after.walk path = .ok place) (directory : after.isDirectory place = true) :
    before.walk path = .ok place := by
  obtain ⟨plain, short, walkedParts⟩ := walk_eq_ok.mp walked
  exact walk_eq_ok.mpr ⟨plain, short, gains.walkFrom walkedParts directory⟩

theorem isDirectoryPath_iff {path : String} : tree.isDirectoryPath path = true
    ↔ ∃ place, tree.walk path = .ok place ∧ tree.isDirectory place = true := by
  unfold isDirectoryPath found
  constructor
  · intro there
    split at there
    · rename_i place walked
      exact ⟨place, walked, there⟩
    · cases there
  · rintro ⟨place, walked, directory⟩
    rw [walked]
    exact directory

theorem Gains.isDirectoryPath (gains : Gains own before after) (path : String) :
    after.isDirectoryPath path = before.isDirectoryPath path := by
  rw [Bool.eq_iff_iff, isDirectoryPath_iff, isDirectoryPath_iff]
  constructor
  · rintro ⟨place, walked, directory⟩
    exact ⟨place, gains.walk walked directory, gains.isDirectory place ▸ directory⟩
  · rintro ⟨place, walked, directory⟩
    exact ⟨place, gains.keeps.walk walked, (gains.isDirectory place).trans directory⟩

end

end RefSync.FileTree
