/-
Configs with what a composite build needs. A config that was repaired has it, so has one that needs
no repair, and other aliases take nothing of it away.
-/

import RefSync.Config.Options
import RefSync.Proofs.Json.Same

namespace RefSync.Config

/-- Whether a config has what a composite build needs. -/
def Satisfactory (config : Document) : Prop :=
  isSatisfactory (config.get? "compilerOptions") = true

theorem isSatisfactory_obj {options : Document} : isSatisfactory (some (.obj options)) = true
    ↔ ∀ entry ∈ requiredOptions, ∃ value, Table.get? options entry.1 = some value
      ∧ (value == entry.2) = true := by
  rw [isSatisfactory, List.all_eq_true]
  refine forall_congr' fun entry => imp_congr_right fun _ => ?_
  rw [Option.any_eq_true]

/-- All defaults are there afterwards, whatever there was before. -/
theorem get?_withDefaults (options : Document) (jsx : Bool) {entry : String × Json}
    (default : entry ∈ defaultOptions) :
    Table.get? (withDefaults options jsx) entry.1 = some entry.2 := by
  have others {key : String} (other : key ≠ "jsx") (defaults : Document) :
      Table.get? (if jsx then Table.setDefault defaults "jsx" (.str "preserve") else defaults) key
        = Table.get? defaults key := by
    split
    · rw [Table.get?_setDefault, if_neg other, Option.or_none]
    · rfl
  simp only [defaultOptions, List.mem_cons, List.not_mem_nil, or_false] at default
  unfold withDefaults
  dsimp only
  rcases default with rfl | rfl | rfl | rfl
  all_goals
    rw [others (by decide)]
    simp [defaultOptions, Table.get?_set]

theorem get?_withDefaults_other (options : Document) (jsx : Bool) {key : String}
    (other : key ∉ defaultOptions.keys) : Table.get? (withDefaults options jsx) key
      = (Table.get? options key).or (if jsx = true ∧ key = "jsx" then some (.str "preserve") else none) := by
  have kept : Table.get? (defaultOptions.foldl (fun options entry => options.set entry.1 entry.2)
      options) key = Table.get? options key := by
    simp only [defaultOptions, Table.keys, List.map_cons, List.map_nil, List.mem_cons,
      List.not_mem_nil, or_false, not_or] at other
    obtain ⟨notComposite, notOut, notSkip, notInfo⟩ := other
    simp only [defaultOptions, List.foldl_cons, List.foldl_nil, Table.get?_set, if_neg notComposite,
      if_neg notOut, if_neg notSkip, if_neg notInfo]
  unfold withDefaults
  dsimp only
  cases jsx with
  | false =>
      rw [if_neg (by decide), if_neg (fun both => absurd both.1 (by decide)), Option.or_none]
      exact kept
  | true =>
      rw [if_pos rfl, Table.get?_setDefault, kept]
      simp only [true_and]

/-- Defaults that are there already are not set anew. -/
theorem withDefaults_of_present {options : Document} {jsx : Bool}
    (present : ∀ entry ∈ defaultOptions, Table.get? options entry.1 = some entry.2)
    (jsxPresent : jsx = true → options.contains "jsx" = true) : withDefaults options jsx = options := by
  have folded : ∀ entries : Document, (∀ entry ∈ entries, Table.get? options entry.1 = some entry.2) →
      entries.foldl (fun options entry => options.set entry.1 entry.2) options = options := by
    intro entries
    induction entries with
    | nil => exact fun _ => rfl
    | cons entry rest ih =>
        intro each
        rw [List.foldl_cons, Table.set_of_get? (each entry List.mem_cons_self)]
        exact ih fun other member => each other (List.mem_cons_of_mem _ member)
  unfold withDefaults
  dsimp only
  rw [folded defaultOptions present]
  split
  · rename_i asked
    rw [Table.setDefault, if_pos (jsxPresent asked)]
  · rfl

theorem withDefaults_again (options : Document) (jsx : Bool) :
    withDefaults (withDefaults options jsx) jsx = withDefaults options jsx := by
  refine withDefaults_of_present (fun entry default => get?_withDefaults options jsx default)
    fun asked => ?_
  rw [Table.contains_iff, get?_withDefaults_other options jsx (by decide), if_pos ⟨asked, rfl⟩]
  cases Table.get? options "jsx" <;> rfl

theorem same_true {other : Json} (same : (Json.bool true).same other = true) :
    other.same (.bool true) = true := by
  cases other with
  | bool value =>
      cases value with
      | true => rfl
      | false => exact same
  | int value =>
      have equal : ((1 : Int) == value) = true := same
      rw [← eq_of_beq equal]
      rfl
  | real value => exact same
  | null => cases same
  | str text => cases same
  | arr items => cases same
  | obj members => cases same

theorem beq_required {entry : String × Json} (required : entry ∈ requiredOptions) {other : Json}
    (same : entry.2.same other = true) : (other == entry.2) = true := by
  have scalar : entry.2 = .bool true ∨ ∃ text, entry.2 = .str text := by
    have each : ∀ entry ∈ requiredOptions, entry.2 = .bool true ∨ ∃ text, entry.2 = .str text := by
      simp [requiredOptions, defaultOptions]
    exact each entry required
  change other.same entry.2 = true
  rcases scalar with isTrue | ⟨text, isText⟩
  · rw [isTrue] at same ⊢
    exact same_true same
  · rw [isText] at same ⊢
    rw [Json.same_str.mp same]
    exact Json.same_str.mpr rfl

theorem clean_options {config options : Document} (clean : Document.Clean config)
    (found : options? config = some options) : Document.Clean options := by
  rcases Option.bind_eq_some_iff.mp found with ⟨value, held, members⟩
  exact Document.clean_members (clean.get? held) members

theorem clean_defaultOptions : ∀ entry ∈ defaultOptions, entry.2.Clean := by
  have each : ∀ entry ∈ defaultOptions, entry.2 = .bool true ∨ ∃ text, entry.2 = .str text := by
    simp [defaultOptions]
  intro entry member
  rcases each entry member with same | ⟨text, same⟩
  · rw [same]
    exact .bool true
  · rw [same]
    exact .str text

theorem clean_withDefaults {options : Document} (clean : Document.Clean options) (jsx : Bool) :
    Document.Clean (withDefaults options jsx) := by
  have folded : ∀ (entries : Document), (∀ entry ∈ entries, entry.2.Clean) → ∀ options,
      Document.Clean options → Document.Clean
        (entries.foldl (fun options entry => options.set entry.1 entry.2) options) := by
    intro entries
    induction entries with
    | nil => exact fun _ _ => id
    | cons entry rest ih =>
        intro each options cleanOptions
        exact ih (fun other member => each other (List.mem_cons_of_mem entry member)) _
          (cleanOptions.set _ (each entry List.mem_cons_self))
  have defaults := folded defaultOptions clean_defaultOptions options clean
  unfold withDefaults
  dsimp only
  split
  · unfold Table.setDefault
    split
    · exact defaults
    · exact defaults.set _ (.str _)
  · exact defaults

theorem clean_required {entry : String × Json} (required : entry ∈ requiredOptions) : entry.2.Clean :=
  clean_defaultOptions entry (List.mem_filter.mp required).1

theorem isSatisfactory_withDefaults (options : Document) (jsx : Bool) :
    isSatisfactory (some (.obj (withDefaults options jsx))) = true := by
  refine isSatisfactory_obj.mpr fun entry required => ?_
  exact ⟨entry.2, get?_withDefaults options jsx (List.mem_filter.mp required).1,
    beq_required required (Json.same_refl (clean_required required))⟩

theorem satisfactory_newWorkspace (jsx : Bool) : Satisfactory (newWorkspace jsx) := by
  unfold Satisfactory
  cases jsx <;> decide +kernel

/-- Other aliases leave the options that a build needs as they are. -/
theorem satisfactory_setAliases {config : Document} (satisfactory : Satisfactory config)
    (aliases : Document) : Satisfactory (setAliases config aliases) := by
  have other : ∀ entry ∈ requiredOptions, entry.1 ≠ "paths" := by
    simp [requiredOptions, defaultOptions]
  unfold Satisfactory at satisfactory ⊢
  rw [setAliases, Table.get?_set, if_pos rfl]
  cases held : config.get? "compilerOptions" with
  | none =>
      rw [held] at satisfactory
      cases satisfactory
  | some value =>
      rw [held] at satisfactory
      cases value with
      | obj options =>
          rw [show options? config = some options by rw [options?, held]; rfl, Option.getD_some]
          refine isSatisfactory_obj.mpr fun entry required => ?_
          rw [Table.get?_set, if_neg (other entry required)]
          exact isSatisfactory_obj.mp satisfactory entry required
      | _ => cases satisfactory

/-- The config with the options that it needs. -/
def repaired (config : Document) (jsx : Bool) : Document :=
  config.set "compilerOptions" (.obj (withDefaults ((options? config).getD []) jsx))

theorem get?_repaired (config : Document) (jsx : Bool) : (repaired config jsx).get? "compilerOptions"
    = some (.obj (withDefaults ((options? config).getD []) jsx)) := by
  rw [repaired, Table.get?_set, if_pos rfl]

theorem satisfactory_repaired (config : Document) (jsx : Bool) :
    Satisfactory (repaired config jsx) := by
  rw [Satisfactory, get?_repaired]
  exact isSatisfactory_withDefaults _ jsx

theorem options?_repaired (config : Document) (jsx : Bool) :
    options? (repaired config jsx) = some (withDefaults ((options? config).getD []) jsx) := by
  rw [options?, get?_repaired]
  rfl

theorem repaired_again (config : Document) (jsx : Bool) :
    repaired (repaired config jsx) jsx = repaired config jsx := by
  rw [repaired, options?_repaired, Option.getD_some, withDefaults_again]
  exact Table.set_of_get? (get?_repaired config jsx)

theorem clean_repairedOptions {config : Document} (clean : Document.Clean config) (jsx : Bool) :
    Document.Clean (withDefaults ((options? config).getD []) jsx) := by
  apply clean_withDefaults
  cases found : options? config with
  | none => exact Document.clean_empty
  | some options => exact clean_options clean found

theorem clean_repaired {config : Document} (clean : Document.Clean config) (jsx : Bool) :
    Document.Clean (repaired config jsx) :=
  clean.set _ (Document.clean_obj.mpr (clean_repairedOptions clean jsx))

/-- What is the same as a repaired config has what a build needs. -/
theorem satisfactory_of_same {config : Document} (clean : Document.Clean config) {jsx : Bool}
    (same : (repaired config jsx).same config = true) : Satisfactory config := by
  obtain ⟨value, found, sames⟩ := ((Document.same_iff (clean_repaired clean jsx)).mp same).2 _ _
    (get?_repaired config jsx)
  rw [Satisfactory, found]
  cases value with
  | obj others =>
      refine isSatisfactory_obj.mpr fun entry required => ?_
      obtain ⟨other, there, equal⟩ :=
        ((Document.same_iff (clean_repairedOptions clean jsx)).mp sames).2 _ _
          (get?_withDefaults _ jsx (List.mem_filter.mp required).1)
      exact ⟨other, there, beq_required required equal⟩
  | _ => cases sames

/-- What a repair does: it yields the repaired config, unless nothing is to be repaired. -/
theorem configure?_cases {config : Document} (clean : Document.Clean config) (jsx force : Bool) :
    configure? config jsx force = some (repaired config jsx)
      ∨ configure? config jsx force = none ∧ Satisfactory config := by
  unfold configure?
  split
  · rename_i unforced
    exact Or.inr ⟨rfl, (Bool.and_eq_true_iff.mp unforced).2⟩
  · change (if (repaired config jsx).same config then none else some (repaired config jsx)) = _
      ∨ (if (repaired config jsx).same config then none else some (repaired config jsx)) = _ ∧ _
    split
    · rename_i same
      exact Or.inr ⟨rfl, satisfactory_of_same clean same⟩
    · exact Or.inl rfl

/-- A repair leaves a config that needs none. -/
theorem satisfactory_configure {config : Document} (clean : Document.Clean config)
    (jsx force : Bool) : Satisfactory ((configure? config jsx force).getD config) := by
  rcases configure?_cases clean jsx force with made | ⟨none, satisfactory⟩
  · rw [made]
    exact satisfactory_repaired config jsx
  · rw [none]
    exact satisfactory

/-- Unless it is forced, a repair is made exactly where the check fails. -/
theorem configure?_eq_none_iff {config : Document} (clean : Document.Clean config) (jsx : Bool) :
    configure? config jsx false = none ↔ Satisfactory config := by
  constructor
  · intro unchanged
    rcases configure?_cases clean jsx false with made | ⟨_, satisfactory⟩
    · rw [unchanged] at made
      cases made
    · exact satisfactory
  · intro satisfactory
    have unforced : (!false && isSatisfactory (config.get? "compilerOptions")) = true := satisfactory
    rw [configure?, if_pos unforced]

theorem configure?_repaired {config : Document} (clean : Document.Clean config) (jsx force : Bool) :
    configure? (repaired config jsx) jsx force = none := by
  unfold configure?
  split
  · rfl
  · change (if (repaired (repaired config jsx) jsx).same (repaired config jsx) then none
      else some (repaired (repaired config jsx) jsx)) = none
    rw [repaired_again, if_pos (Document.same_refl (clean_repaired clean jsx))]

end RefSync.Config
