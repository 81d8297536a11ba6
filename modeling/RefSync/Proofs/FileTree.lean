/-
Walks through a tree. Without links the place that a walk comes to is the one that its
components say, and everything on the way is there. So a tree that gains entries, or gets
other files in the place of some, is walked through as before.
-/

import RefSync.FileTree

namespace RefSync.FileTree

open Path

variable {tree : FileTree}

/-! ### Steps of a walk -/

theorem walkFrom_parent {here : Place} {rest : List String} (entered : tree.isDirectory here = true) :
    tree.walkFrom here (".." :: rest) = tree.walkFrom here.dropLast rest := by
  rw [walkFrom, entered]
  rfl

theorem walkFrom_child {here : Place} {part : String} {rest : List String}
    (entered : tree.isDirectory here = true) (named : part ≠ "..") (short : isLongName part = false)
    (there : (tree.get? (here ++ [part])).isSome) :
    tree.walkFrom here (part :: rest) = tree.walkFrom (here ++ [part]) rest := by
  obtain ⟨entry, held⟩ := Option.isSome_iff_exists.mp there
  rw [walkFrom, entered, if_neg (mt eq_of_beq named), short, held]
  rfl

/-- A walk goes up, or down to what is there. -/
theorem walkFrom_cons {here place : Place} {part : String} {rest : List String}
    (walked : tree.walkFrom here (part :: rest) = .ok place) : tree.isDirectory here = true
      ∧ (part = ".." ∧ tree.walkFrom here.dropLast rest = .ok place
        ∨ part ≠ ".." ∧ isLongName part = false ∧ (tree.get? (here ++ [part])).isSome
          ∧ tree.walkFrom (here ++ [part]) rest = .ok place) := by
  rw [walkFrom] at walked
  split at walked
  · cases walked
  · rename_i entered
    refine ⟨by simpa using entered, ?_⟩
    split at walked
    · rename_i up
      exact Or.inl ⟨eq_of_beq up, walked⟩
    · rename_i down
      split at walked
      · cases walked
      · rename_i short
        split at walked
        · cases walked
        · rename_i held
          exact Or.inr ⟨fun same => down (beq_iff_eq.mpr same), by simpa using short,
            by rw [held]; rfl, walked⟩

/-- One more component to leave is left first. -/
theorem map_parent_concat (front : List String) (last : String) :
    (front ++ [last]).map (fun _ => "..") = ".." :: front.map fun _ => ".." := by
  simp only [List.map_const', List.length_append, List.length_singleton, List.replicate_succ]

/-- A path that is not refused as a text is walked along its components. -/
theorem walk_eq_ok {path : String} {place : Place} : tree.walk path = .ok place
    ↔ hasNull path = false ∧ isLongPath path = false ∧ tree.walkFrom [] (parts path) = .ok place := by
  unfold walk
  cases hasNull path with
  | true => exact ⟨nofun, nofun⟩
  | false =>
      cases isLongPath path with
      | true => exact ⟨nofun, nofun⟩
      | false => exact ⟨fun walked => ⟨rfl, rfl, walked⟩, fun holds => holds.2.2⟩

/-! ### Where a walk comes to -/

private theorem push_up {here : Place} (inner : ".." ∉ here) :
    push true here.reverse ".." = here.dropLast.reverse := by
  rw [← List.tail_reverse]
  cases reversed : here.reverse with
  | nil => rfl
  | cons top others =>
      have differs : (top == "..") = false := by
        refine beq_false_of_ne fun same => inner (List.mem_reverse.mp ?_)
        rw [reversed, same]
        exact List.mem_cons_self
      simp only [push, bne_self_eq_false, differs, Bool.false_eq_true, if_false, List.tail_cons]

private theorem push_down (here : Place) {part : String} (named : part ≠ "..") :
    push true here.reverse part = (here ++ [part]).reverse := by
  rw [List.reverse_append, List.reverse_singleton, List.singleton_append, push.eq_def,
    if_pos (bne_iff_ne.mpr named)]

private theorem not_mem_above {here : Place} (inner : ".." ∉ here) : ".." ∉ here.dropLast :=
  fun member => inner (List.dropLast_subset here member)

private theorem not_mem_below {here : Place} (inner : ".." ∉ here) {part : String}
    (named : part ≠ "..") : ".." ∉ here ++ [part] := by
  intro member
  rcases List.mem_append.mp member with before | last
  · exact inner before
  · exact named (List.mem_singleton.mp last).symm

/-- The place a walk comes to, by its components alone. -/
theorem walkFrom_place {here place : Place} {components : List String} (inner : ".." ∉ here)
    (walked : tree.walkFrom here components = .ok place) :
    place = (components.foldl (push true) here.reverse).reverse := by
  induction components generalizing here with
  | nil =>
      cases walked
      rw [List.foldl_nil, List.reverse_reverse]
  | cons part rest ih =>
      obtain ⟨_, ⟨rfl, goesOn⟩ | ⟨named, _, _, goesOn⟩⟩ := walkFrom_cons walked
      · rw [List.foldl_cons, push_up inner]
        exact ih (not_mem_above inner) goesOn
      · rw [List.foldl_cons, push_down here named]
        exact ih (not_mem_below inner named) goesOn

theorem walkFrom_append {here place : Place} {first rest : List String}
    (walked : tree.walkFrom here (first ++ rest) = .ok place) :
    ∃ middle, tree.walkFrom here first = .ok middle ∧ tree.walkFrom middle rest = .ok place := by
  induction first generalizing here with
  | nil => exact ⟨here, rfl, walked⟩
  | cons part others ih =>
      rw [List.cons_append] at walked
      obtain ⟨entered, ⟨rfl, goesOn⟩ | ⟨named, short, there, goesOn⟩⟩ := walkFrom_cons walked
      · rw [walkFrom_parent entered]
        exact ih goesOn
      · rw [walkFrom_child entered named short there]
        exact ih goesOn

/-- A walk goes on where the first part of it has come to. -/
theorem walkFrom_goesOn {here middle : Place} {first rest : List String}
    (walked : tree.walkFrom here first = .ok middle) :
    tree.walkFrom here (first ++ rest) = tree.walkFrom middle rest := by
  induction first generalizing here with
  | nil =>
      cases walked
      rfl
  | cons part others ih =>
      rw [List.cons_append]
      obtain ⟨entered, ⟨rfl, goesOn⟩ | ⟨named, short, there, goesOn⟩⟩ := walkFrom_cons walked
      · rw [walkFrom_parent entered]
        exact ih goesOn
      · rw [walkFrom_child entered named short there]
        exact ih goesOn

theorem walkFrom_name {here place : Place} {name : String} (named : name ≠ "..")
    (walked : tree.walkFrom here [name] = .ok place) :
    tree.isDirectory here = true ∧ isLongName name = false ∧ place = here ++ [name] := by
  obtain ⟨entered, ⟨up, _⟩ | ⟨_, short, _, ends⟩⟩ := walkFrom_cons walked
  · exact absurd up named
  · cases ends
    exact ⟨entered, short, rfl⟩

theorem walk_place {path : String} {place : Place} (walked : tree.walk path = .ok place) :
    place = resolve true (parts path) :=
  walkFrom_place List.not_mem_nil (walk_eq_ok.mp walked).2.2

/-- Only the path itself can have a null character. -/
theorem hasNull_of_walk {path : String} (refused : tree.walk path = .error .nullCharacter) :
    hasNull path = true := by
  have general (here : Place) (components : List String) :
      tree.walkFrom here components ≠ .error .nullCharacter := by
    induction components generalizing here with
    | nil => nofun
    | cons part rest ih =>
        rw [walkFrom]
        split
        · nofun
        · split
          · exact ih _
          · split
            · nofun
            · split
              · nofun
              · exact ih _
  unfold walk at refused
  split at refused
  · rename_i null
    exact null
  · split at refused
    · cases refused
    · exact absurd refused (general [] (parts path))

/-- A directory is the top one or one of the entries. -/
theorem isDirectory_entry {place : Place} (directory : tree.isDirectory place = true) :
    place = [] ∨ (place, .directory) ∈ tree.entries := by
  cases place with
  | nil => exact Or.inl rfl
  | cons first rest =>
      right
      have found : tree.entries.lookup (first :: rest) = some .directory := by
        rw [isDirectory, get?] at directory
        exact eq_of_beq directory
      obtain ⟨before, after, spelled, _⟩ := List.lookup_eq_some_iff.mp found
      rw [spelled]
      exact List.mem_append_right before List.mem_cons_self

theorem get?_of_found {path : String} {entry : Entry} (found : tree.found path = some entry) :
    tree.get? (resolve true (parts path)) = some entry := by
  unfold FileTree.found at found
  split at found
  · rename_i place walked
    rw [← walk_place walked]
    exact found
  · cases found

/-! ### Trees that gain entries -/

/-- Whether everything that is there stays, where files in the free places may become other
files. -/
def Keeps (free : Place → Prop) (before after : FileTree) : Prop :=
  ∀ place entry, before.get? place = some entry →
    ∃ later, after.get? place = some later ∧ (entry = .directory ∨ ¬free place → later = entry)

section

variable {free : Place → Prop} {before after : FileTree}

theorem Keeps.refl (free : Place → Prop) (tree : FileTree) : Keeps free tree tree :=
  fun _ entry found => ⟨entry, found, fun _ => rfl⟩

theorem Keeps.trans {between : FileTree} (first : Keeps free before between)
    (second : Keeps free between after) : Keeps free before after := by
  intro place entry found
  rcases first place entry found with ⟨middle, middleFound, same⟩
  rcases second place middle middleFound with ⟨later, laterFound, sameLater⟩
  refine ⟨later, laterFound, fun kept => ?_⟩
  have middleSame : middle = entry := same kept
  rw [← middleSame] at kept
  exact (sameLater kept).trans middleSame

theorem Keeps.isDirectory {place : Place} (keeps : Keeps free before after)
    (directory : before.isDirectory place = true) : after.isDirectory place = true := by
  rcases keeps place .directory (eq_of_beq directory) with ⟨later, found, same⟩
  rw [FileTree.isDirectory, found, same (Or.inl rfl)]
  rfl

theorem Keeps.get? {place : Place} {entry : Entry} (keeps : Keeps free before after)
    (elsewhere : ¬free place) (found : before.get? place = some entry) :
    after.get? place = some entry := by
  rcases keeps place entry found with ⟨later, laterFound, same⟩
  rw [laterFound, same (Or.inr elsewhere)]

theorem Keeps.isSome {place : Place} (keeps : Keeps free before after)
    (there : (before.get? place).isSome) : (after.get? place).isSome := by
  obtain ⟨entry, held⟩ := Option.isSome_iff_exists.mp there
  obtain ⟨later, laterHeld, _⟩ := keeps place entry held
  rw [laterHeld]
  rfl

theorem Keeps.walkFrom {here place : Place} {components : List String}
    (keeps : Keeps free before after) (walked : before.walkFrom here components = .ok place) :
    after.walkFrom here components = .ok place := by
  induction components generalizing here with
  | nil => exact walked
  | cons part rest ih =>
      obtain ⟨entered, ⟨rfl, goesOn⟩ | ⟨named, short, there, goesOn⟩⟩ := walkFrom_cons walked
      · rw [walkFrom_parent (keeps.isDirectory entered)]
        exact ih goesOn
      · rw [walkFrom_child (keeps.isDirectory entered) named short (keeps.isSome there)]
        exact ih goesOn

theorem Keeps.walk {path : String} {place : Place} (keeps : Keeps free before after)
    (walked : before.walk path = .ok place) : after.walk path = .ok place := by
  obtain ⟨plain, short, walkedParts⟩ := walk_eq_ok.mp walked
  exact walk_eq_ok.mpr ⟨plain, short, keeps.walkFrom walkedParts⟩

theorem keeps_put {place : Place} {entry : Entry}
    (fits : tree.get? place = none ∨ entry ≠ .directory ∧ free place ∧ tree.isDirectory place = false) :
    Keeps free tree (tree.put place entry) := by
  intro other present found
  cases other with
  | nil => exact ⟨present, found, fun _ => rfl⟩
  | cons first rest =>
      rw [get?_put _ _ _ _ (List.cons_ne_nil first rest)]
      by_cases same : first :: rest = place
      · rw [if_pos same]
        rw [same] at found ⊢
        rcases fits with absent | ⟨_, inFree, noDirectory⟩
        · rw [absent] at found
          cases found
        · refine ⟨entry, rfl, fun kept => ?_⟩
          rcases kept with directory | elsewhere
          · rw [FileTree.isDirectory, found, directory] at noDirectory
            cases noDirectory
          · exact absurd inFree elsewhere
      · rw [if_neg same]
        exact ⟨present, found, fun _ => rfl⟩

end

/-! ### Trees in which files become others -/

/-- Whether nothing is different but what the files in some places hold. -/
def Alters (own : Place → Prop) (before after : FileTree) : Prop :=
  ∀ place, after.get? place = before.get? place ∨ own place
    ∧ (∃ content, before.get? place = some (.file content))
    ∧ ∃ content, after.get? place = some (.file content)

section

variable {own : Place → Prop} {before after : FileTree}

theorem Alters.refl (own : Place → Prop) (tree : FileTree) : Alters own tree tree :=
  fun _ => Or.inl rfl

theorem Alters.trans {between : FileTree} (first : Alters own before between)
    (second : Alters own between after) : Alters own before after := by
  intro place
  rcases first place with still | ⟨mine, held, there⟩
  · rcases second place with same | ⟨mine, held, there⟩
    · exact Or.inl (same.trans still)
    · exact Or.inr ⟨mine, still ▸ held, there⟩
  · rcases second place with same | ⟨_, _, later⟩
    · exact Or.inr ⟨mine, held, same ▸ there⟩
    · exact Or.inr ⟨mine, held, later⟩

theorem Alters.weaken {more : Place → Prop} (alters : Alters own before after)
    (wider : ∀ place, own place → more place) : Alters more before after :=
  fun place => (alters place).imp_right fun ⟨mine, held⟩ => ⟨wider place mine, held⟩

theorem Alters.apart {place : Place} (alters : Alters own before after) (apart : ¬own place) :
    after.get? place = before.get? place :=
  (alters place).resolve_right fun altered => apart altered.1

theorem Alters.keeps (alters : Alters own before after) : Keeps own before after := by
  intro place entry found
  rcases alters place with same | ⟨mine, ⟨content, held⟩, later, there⟩
  · exact ⟨entry, same.trans found, fun _ => rfl⟩
  · refine ⟨_, there, fun kept => ?_⟩
    rw [held] at found
    cases found
    rcases kept with directory | elsewhere
    · cases directory
    · exact absurd mine elsewhere

theorem Alters.isDirectory (alters : Alters own before after) (place : Place) :
    after.isDirectory place = before.isDirectory place := by
  unfold FileTree.isDirectory
  rcases alters place with same | ⟨_, ⟨_, held⟩, _, there⟩
  · rw [same]
  · rw [held, there]
    rfl

/-- No walk leads elsewhere, or fails in another way. -/
theorem Alters.walkFrom (alters : Alters own before after) (here : Place) (components : List String) :
    after.walkFrom here components = before.walkFrom here components := by
  induction components generalizing here with
  | nil => rfl
  | cons part rest ih =>
      rw [FileTree.walkFrom, FileTree.walkFrom, alters.isDirectory, ih]
      rcases alters (here ++ [part]) with same | ⟨_, ⟨_, held⟩, _, there⟩
      · rw [same]
        simp only [ih]
      · rw [held, there]
        simp only [ih]

theorem Alters.walk (alters : Alters own before after) (path : String) :
    after.walk path = before.walk path := by
  rw [FileTree.walk, FileTree.walk, alters.walkFrom]

theorem alters_put {place : Place} {content : Content} (mine : own place)
    (held : tree.get? place = some (.file content)) (later : Content) :
    Alters own tree (tree.put place (.file later)) := by
  intro other
  have inside : place ≠ [] := by
    rintro rfl
    cases held
  by_cases same : other = place
  · rw [same]
    exact Or.inr ⟨mine, ⟨content, held⟩, later, (get?_put _ _ _ _ inside).trans (if_pos rfl)⟩
  · cases other with
    | nil => exact Or.inl rfl
    | cons first rest =>
        exact Or.inl ((get?_put _ _ _ _ (List.cons_ne_nil first rest)).trans (if_neg same))

end

/-! ### Making directories -/

/-- Making directories takes nothing away, and comes to the place that the components say. -/
theorem keeps_makeFrom (free : Place → Prop) (components : List String) (made : Bool)
    (here : Place) (tree : FileTree) :
    Keeps free tree (tree.makeFrom made here components).2 := by
  induction components generalizing made here tree with
  | nil => exact Keeps.refl free tree
  | cons part rest ih =>
      rw [makeFrom]
      dsimp only
      split
      · exact ih made here.dropLast tree
      · split
        · exact Keeps.refl free tree
        · split
          · exact ih made (here ++ [part]) tree
          · exact Keeps.refl free tree
          · rename_i absent
            exact (keeps_put (Or.inl absent)).trans (ih true (here ++ [part]) _)

/-- Along directories that are there nothing is made. -/
theorem makeFrom_of_walkFrom {components : List String} {made : Bool} {here place : Place}
    (walked : tree.walkFrom here components = .ok place)
    (directory : tree.isDirectory place = true) :
    tree.makeFrom made here components = (.ok place, tree) := by
  induction components generalizing here with
  | nil =>
      cases walked
      rfl
  | cons part rest ih =>
      rw [makeFrom]
      obtain ⟨_, ⟨rfl, goesOn⟩ | ⟨named, short, there, goesOn⟩⟩ := walkFrom_cons walked
      · exact ih goesOn
      · rw [if_neg (mt eq_of_beq named), short, if_neg Bool.false_ne_true]
        obtain ⟨entry, held⟩ := Option.isSome_iff_exists.mp there
        cases entry with
        | directory =>
            dsimp only
            rw [held]
            exact ih goesOn
        | file content =>
            -- Nothing is below a file, so it would be the directory that the walk comes to.
            have stuck : tree.isDirectory (here ++ [part]) = false := by
              rw [isDirectory, held]
              rfl
            cases rest with
            | nil =>
                cases goesOn
                rw [stuck] at directory
                cases directory
            | cons next others =>
                rw [(walkFrom_cons goesOn).1] at stuck
                cases stuck

/-! ### Files that stay files -/

/-- Whether every file is a file afterwards, whatever it holds then. -/
def Stays (before after : FileTree) : Prop :=
  ∀ place content, before.get? place = some (.file content) →
    ∃ later, after.get? place = some (.file later)

section

variable {free : Place → Prop} {before after : FileTree}

theorem Stays.refl (tree : FileTree) : Stays tree tree :=
  fun _ content found => ⟨content, found⟩

theorem Stays.trans {between : FileTree} (first : Stays before between)
    (second : Stays between after) : Stays before after := by
  intro place content found
  obtain ⟨middle, there⟩ := first place content found
  exact second place middle there

theorem stays_put {place : Place} {entry : Entry}
    (fits : tree.get? place = none ∨ ∃ content, entry = .file content) :
    Stays tree (tree.put place entry) := by
  intro other content found
  cases other with
  | nil => exact ⟨content, found⟩
  | cons first rest =>
      rw [get?_put _ _ _ _ (List.cons_ne_nil first rest)]
      by_cases same : first :: rest = place
      · rcases fits with absent | ⟨later, rfl⟩
        · rw [same, absent] at found
          cases found
        · exact ⟨later, if_pos same⟩
      · exact ⟨content, by rw [if_neg same, found]⟩

/-- Where a walk is: every directory above has been entered. -/
private structure Entered (tree : FileTree) (here : Place) : Prop where
  found : (tree.get? here).isSome
  above between : between <+: here.dropLast → tree.isDirectory between = true

private theorem Entered.up {here : Place} (entered : Entered tree here) :
    Entered tree here.dropLast := by
  refine ⟨?_, fun between within => ?_⟩
  · rw [eq_of_beq (entered.above _ (List.prefix_refl _))]
    rfl
  · exact entered.above between (within.trans (List.dropLast_prefix _))

private theorem Entered.down {here : Place} {part : String} (entered : Entered tree here)
    (directory : tree.isDirectory here = true) (found : (tree.get? (here ++ [part])).isSome) :
    Entered tree (here ++ [part]) := by
  refine ⟨found, fun between within => ?_⟩
  rw [List.dropLast_concat] at within
  rcases List.prefix_iff_eq_take.mp within with same
  by_cases whole : between = here
  · rw [whole]
    exact directory
  · refine entered.above between ?_
    rw [List.prefix_iff_eq_take]
    have shorter : between.length < here.length := by
      rcases Nat.lt_or_ge between.length here.length with less | more
      · exact less
      · rw [List.take_of_length_le more] at same
        exact absurd same whole
    rw [List.dropLast_eq_take, List.take_take, Nat.min_eq_left (by omega)]
    exact same

private theorem Entered.keeps {here : Place} (entered : Entered before here)
    (keeps : Keeps free before after) : Entered after here :=
  ⟨keeps.isSome entered.found,
    fun between within => keeps.isDirectory (entered.above between within)⟩

/-- Along the directories that were made one comes to the last of them. -/
private theorem walkFrom_of_makeFrom {components : List String} {made : Bool} {here place : Place}
    (entered : Entered tree here) (directory : tree.isDirectory here = true)
    (makes : (tree.makeFrom made here components).1 = .ok place) :
    (tree.makeFrom made here components).2.walkFrom here components = .ok place
      ∧ (tree.makeFrom made here components).2.isDirectory place = true := by
  induction components generalizing made here tree with
  | nil =>
      cases makes
      exact ⟨rfl, directory⟩
  | cons part rest ih =>
      have stays := (keeps_makeFrom (fun _ => False) (part :: rest) made here tree).isDirectory directory
      rw [makeFrom] at makes stays ⊢
      by_cases up : (part == "..") = true
      · rw [if_pos up] at makes stays ⊢
        rw [eq_of_beq up, walkFrom_parent stays]
        exact ih entered.up (entered.above _ (List.prefix_refl _)) makes
      · rw [if_neg up] at makes ⊢
        by_cases long : isLongName part = true
        · rw [if_pos long] at makes
          cases makes
        · rw [if_neg long] at makes ⊢
          dsimp only at makes ⊢
          have named : part ≠ ".." := fun same => up (beq_iff_eq.mpr same)
          have goesOn {between : FileTree} {made : Bool} (next : Entered between (here ++ [part]))
              (above : between.isDirectory here = true)
              (isDirectory : between.isDirectory (here ++ [part]) = true)
              (makes : (between.makeFrom made (here ++ [part]) rest).1 = .ok place) :
              (between.makeFrom made (here ++ [part]) rest).2.walkFrom here (part :: rest) = .ok place
                ∧ (between.makeFrom made (here ++ [part]) rest).2.isDirectory place = true := by
            have keeps := keeps_makeFrom (fun _ => False) rest made (here ++ [part]) between
            obtain ⟨walked, there⟩ := ih next isDirectory makes
            refine ⟨?_, there⟩
            rw [walkFrom_child (keeps.isDirectory above) named (Bool.eq_false_iff.mpr long)
              (keeps.isSome next.found), walked]
          cases found : tree.get? (here ++ [part]) with
          | none =>
              rw [found] at makes
              have isDirectory : (tree.put (here ++ [part]) .directory).isDirectory (here ++ [part])
                  = true := by
                rw [FileTree.isDirectory, get?_put _ _ _ _ (by simp), if_pos rfl]
                rfl
              have keeps : Keeps (fun _ => False) tree (tree.put (here ++ [part]) .directory) :=
                keeps_put (Or.inl found)
              have next := (entered.keeps keeps).down (keeps.isDirectory directory)
                (by rw [eq_of_beq isDirectory]; rfl)
              exact goesOn next (keeps.isDirectory directory) isDirectory makes
          | some entry =>
              rw [found] at makes
              cases entry with
              | directory =>
                  have isDirectory : tree.isDirectory (here ++ [part]) = true := by
                    rw [FileTree.isDirectory, found]
                    rfl
                  exact goesOn (entered.down directory (by rw [found]; rfl)) directory isDirectory makes
              | file content => cases makes

/-- Directories that were made from the top are there. -/
theorem walk_of_makeFrom {components : List String} {place : Place}
    (makes : (tree.makeFrom false [] components).1 = .ok place) :
    (tree.makeFrom false [] components).2.walkFrom [] components = .ok place
      ∧ (tree.makeFrom false [] components).2.isDirectory place = true := by
  refine walkFrom_of_makeFrom ⟨rfl, fun between within => ?_⟩ rfl makes
  rw [List.prefix_nil.mp within]
  rfl

/-- What is in the way of a walk stays in its way. -/
theorem walkFrom_refused {here : Place} {components : List String} {fault : Unreachable}
    (keeps : Keeps free before after) (stays : Stays before after) (entered : Entered before here)
    (refused : before.walkFrom here components = .error fault) (there : fault ≠ .missing) :
    after.walkFrom here components = .error fault := by
  induction components generalizing here with
  | nil => cases refused
  | cons part rest ih =>
      rw [walkFrom] at refused ⊢
      cases directory : before.isDirectory here with
      | false =>
          rw [directory] at refused
          obtain ⟨entry, found⟩ := Option.isSome_iff_exists.mp entered.found
          have stuck : after.isDirectory here = false := by
            cases entry with
            | directory =>
                rw [isDirectory, found] at directory
                cases directory
            | file content =>
                obtain ⟨later, laterFound⟩ := stays here content found
                rw [isDirectory, laterFound]
                rfl
          rw [stuck]
          exact refused
      | true =>
          rw [directory] at refused
          rw [keeps.isDirectory directory]
          simp only [Bool.not_true, Bool.false_eq_true, if_false] at refused ⊢
          split at refused
          · rename_i up
            rw [if_pos up]
            exact ih entered.up refused
          · rename_i down
            rw [if_neg down]
            split at refused
            · rename_i long
              rw [if_pos long]
              exact refused
            · rename_i short
              rw [if_neg short]
              cases found : before.get? (here ++ [part]) with
              | none =>
                  rw [found] at refused
                  cases refused
                  exact absurd rfl there
              | some entry =>
                  rw [found] at refused
                  rcases keeps _ entry found with ⟨later, laterFound, _⟩
                  rw [laterFound]
                  exact ih (entered.down directory (by rw [found]; rfl)) refused

theorem walk_refused {path : String} {fault : Unreachable} (keeps : Keeps free before after)
    (stays : Stays before after) (refused : before.walk path = .error fault)
    (there : fault ≠ .missing) : after.walk path = .error fault := by
  unfold walk at refused ⊢
  split at refused
  · rename_i null
    rw [if_pos null]
    exact refused
  · rename_i plain
    rw [if_neg plain]
    split at refused
    · rename_i long
      rw [if_pos long]
      exact refused
    · rename_i short
      rw [if_neg short]
      have top : Entered before [] := by
        refine ⟨rfl, fun between within => ?_⟩
        rw [List.prefix_nil.mp within]
        rfl
      exact walkFrom_refused keeps stays top refused there

end

/-- What a write makes of a tree: at most one file is put in its place, and directories
where nothing was. -/
structure Puts (target : Place) (content : Content) (before after : FileTree) : Prop where
  keeps : Keeps (· = target) before after
  stays : Stays before after
  files place held : after.get? place = some (.file held) →
    before.get? place = some (.file held) ∨ place = target ∧ held = content

theorem puts_refl (target : Place) (content : Content) (tree : FileTree) :
    Puts target content tree tree :=
  ⟨Keeps.refl _ tree, Stays.refl tree, fun _ _ => Or.inl⟩

/-- Making directories puts no file anywhere. -/
theorem puts_makeFrom (target : Place) (content : Content) (components : List String) (made : Bool)
    (here : Place) (tree : FileTree) :
    Puts target content tree (tree.makeFrom made here components).2 := by
  induction components generalizing made here tree with
  | nil => exact puts_refl target content tree
  | cons part rest ih =>
      rw [makeFrom]
      dsimp only
      split
      · exact ih made here.dropLast tree
      · split
        · exact puts_refl target content tree
        · split
          · exact ih made (here ++ [part]) tree
          · exact puts_refl target content tree
          · rename_i absent
            have later := ih true (here ++ [part]) (tree.put (here ++ [part]) .directory)
            refine ⟨(keeps_put (Or.inl absent)).trans later.keeps,
              (stays_put (Or.inl absent)).trans later.stays, fun place held found => ?_⟩
            rcases later.files place held found with before | own
            · left
              cases place with
              | nil => exact before
              | cons first others =>
                  rw [get?_put _ _ _ _ (List.cons_ne_nil first others)] at before
                  split at before
                  · cases before
                  · exact before
            · exact Or.inr own

end RefSync.FileTree
