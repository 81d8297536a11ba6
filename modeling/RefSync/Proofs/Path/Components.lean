/-
The components of a path text. A path is put together from its components and taken
apart again without loss, so statements about places may speak of lists of components.
A normal relative path is the one text for its components.
-/

import RefSync.Path

namespace RefSync.Path

/-- What can stand between two slashes and names something. -/
structure IsComponent (part : String) : Prop where
  notEmpty : part ≠ ""
  notHere : part ≠ "."
  oneName : '/' ∉ part.toList

/-- What names something in a directory. -/
structure IsName (part : String) : Prop where
  component : IsComponent part
  notParent : part ≠ ".."

instance (part : String) : Decidable (IsName part) :=
  decidable_of_iff (part ≠ "" ∧ part ≠ "." ∧ '/' ∉ part.toList ∧ part ≠ "..")
    ⟨fun ⟨filled, here, oneName, parent⟩ => ⟨⟨filled, here, oneName⟩, parent⟩,
      fun ⟨⟨filled, here, oneName⟩, parent⟩ => ⟨filled, here, oneName, parent⟩⟩

/-- A relative path in its shortest form. The directory itself is `.`. -/
structure IsNormal (path : String) : Prop where
  relative : isAbsolute path = false
  shortest : normalize path = path

/-! ### Taking apart -/

theorem pieces_eq_splitOn (text : List Char) : pieces text = text.splitOn '/' := by
  induction text with
  | nil => rw [pieces, List.splitOn_nil]
  | cons char rest ih =>
      rw [List.splitOn_cons_eq_if_modifyHead]
      by_cases slash : char = '/'
      · subst slash
        rw [pieces, ih, if_pos (beq_self_eq_true '/')]
      · have differs : (char == '/') = false := beq_false_of_ne slash
        rw [pieces.eq_3 _ _ (fun same => slash same), ih, differs]
        cases found : rest.splitOn '/' with
        | nil => exact absurd found (List.splitOn_ne_nil '/' rest)
        | cons piece others => rfl

/-- Whether a piece between slashes counts as a component. -/
private def counts (piece : List Char) : Bool :=
  piece != [] && piece != ['.']

private theorem parts_eq (path : String) :
    parts path = ((path.toList.splitOn '/').filter counts).map String.ofList := by
  rw [parts, pieces_eq_splitOn]
  rfl

private theorem mem_splitOn_no_slash (text piece : List Char) (member : piece ∈ text.splitOn '/') :
    '/' ∉ piece := by
  induction text generalizing piece with
  | nil =>
      rw [List.splitOn_nil, List.mem_singleton] at member
      subst member
      exact List.not_mem_nil
  | cons char rest ih =>
      rw [← pieces_eq_splitOn] at member
      by_cases slash : char = '/'
      · subst slash
        rw [pieces, pieces_eq_splitOn, List.mem_cons] at member
        rcases member with rfl | later
        · exact List.not_mem_nil
        · exact ih piece later
      · rw [pieces.eq_3 _ _ (fun same => slash same), pieces_eq_splitOn] at member
        cases found : rest.splitOn '/' with
        | nil => exact absurd found (List.splitOn_ne_nil '/' rest)
        | cons first others =>
            rw [found] at member
            rcases List.mem_cons.mp member with rfl | later
            · have inFirst := ih first (by rw [found]; exact List.mem_cons_self)
              intro present
              rcases List.mem_cons.mp present with same | inside
              · exact slash same.symm
              · exact inFirst inside
            · exact ih piece (by rw [found]; exact List.mem_cons_of_mem _ later)

theorem isComponent_of_mem_parts {path part : String} (member : part ∈ parts path) :
    IsComponent part := by
  rw [parts_eq, List.mem_map] at member
  obtain ⟨piece, kept, rfl⟩ := member
  obtain ⟨inPieces, counted⟩ := List.mem_filter.mp kept
  rw [counts, Bool.and_eq_true, bne_iff_ne, bne_iff_ne] at counted
  refine ⟨?_, ?_, ?_⟩
  · intro empty
    exact counted.1 (by rw [← String.toList_ofList (l := piece), empty, String.toList_empty])
  · intro here
    exact counted.2 (by rw [← String.toList_ofList (l := piece), here]; rfl)
  · rw [String.toList_ofList]
    exact mem_splitOn_no_slash _ _ inPieces

/-! ### Putting together -/

private theorem counts_of_isComponent {part : String} (proper : IsComponent part) :
    counts part.toList = true := by
  rw [counts, Bool.and_eq_true, bne_iff_ne, bne_iff_ne]
  constructor
  · intro empty
    exact proper.notEmpty (String.toList_inj.mp empty)
  · intro here
    exact proper.notHere (String.toList_inj.mp here)

theorem parts_of_isComponent {part : String} (proper : IsComponent part) :
    parts part = [part] := by
  rw [parts_eq, List.splitOn_eq_singleton proper.oneName,
    List.filter_cons_of_pos (counts_of_isComponent proper), List.filter_nil, List.map_singleton,
    String.ofList_toList]

theorem parts_slash (left right : String) :
    parts (left ++ "/" ++ right) = parts left ++ parts right := by
  have spelled : (left ++ "/" ++ right).toList = left.toList ++ '/' :: right.toList := by
    rw [String.toList_append, String.toList_append, List.append_assoc]
    rfl
  rw [parts_eq, parts_eq, parts_eq, spelled, List.splitOn_append_cons_self, List.filter_append,
    List.map_append]

@[simp]
theorem parts_empty : parts "" = [] := by
  rfl

@[simp]
theorem parts_here : parts "." = [] := by
  rfl

@[simp]
theorem joinParts_singleton (part : String) : joinParts [part] = part :=
  String.intercalate_singleton

theorem joinParts_cons_cons (first second : String) (rest : List String) :
    joinParts (first :: second :: rest) = first ++ "/" ++ joinParts (second :: rest) :=
  String.intercalate_cons_cons

theorem parts_joinParts {components : List String}
    (proper : ∀ part ∈ components, IsComponent part) :
    parts (joinParts components) = components := by
  induction components with
  | nil => rfl
  | cons first rest ih =>
      have firstProper := proper first List.mem_cons_self
      cases rest with
      | nil => exact parts_of_isComponent firstProper
      | cons second others =>
          rw [joinParts_cons_cons, parts_slash, parts_of_isComponent firstProper,
            ih fun part member => proper part (List.mem_cons_of_mem _ member)]
          rfl

theorem joinParts_ne_empty {components : List String}
    (proper : ∀ part ∈ components, IsComponent part) (some : components ≠ []) :
    joinParts components ≠ "" := by
  intro empty
  have taken := parts_joinParts proper
  rw [empty, parts_empty] at taken
  exact some taken.symm

theorem isAbsolute_of_noSlash {name : String} (noSlash : '/' ∉ name.toList) :
    isAbsolute name = false := by
  refine beq_false_of_ne fun slash => noSlash ?_
  exact List.mem_of_head? slash

theorem isAbsolute_joinParts {components : List String}
    (proper : ∀ part ∈ components, IsComponent part) :
    isAbsolute (joinParts components) = false := by
  cases components with
  | nil => rfl
  | cons first rest =>
      have firstProper := proper first List.mem_cons_self
      have filled : first.toList ≠ [] := fun empty =>
        firstProper.notEmpty (String.toList_eq_nil_iff.mp empty)
      obtain ⟨char, others, spelled⟩ := List.exists_cons_of_ne_nil filled
      have start : (joinParts (first :: rest)).toList.head? = some char := by
        cases rest with
        | nil =>
            rw [joinParts_singleton, spelled, List.head?_cons]
        | cons second more =>
            rw [joinParts_cons_cons, String.toList_append, String.toList_append, spelled]
            rfl
      rw [isAbsolute, start]
      refine beq_false_of_ne fun slash => firstProper.oneName ?_
      rw [spelled, Option.some.inj slash]
      exact List.mem_cons_self

theorem isAbsolute_ofParts {components : List String}
    (proper : ∀ part ∈ components, IsComponent part) : isAbsolute (ofParts components) = false := by
  unfold ofParts orHere
  split
  · decide
  · exact isAbsolute_joinParts proper

theorem parts_orHere (path : String) : parts (orHere path) = parts path := by
  unfold orHere
  split
  · rename_i empty
    rw [String.isEmpty_iff.mp empty]
    rfl
  · rfl

@[simp]
theorem parts_ofParts {components : List String}
    (proper : ∀ part ∈ components, IsComponent part) :
    parts (ofParts components) = components := by
  rw [ofParts, parts_orHere, parts_joinParts proper]

theorem ofParts_eq_joinParts {components : List String}
    (proper : ∀ part ∈ components, IsComponent part) (some : components ≠ []) :
    ofParts components = joinParts components := by
  have filled : (joinParts components).isEmpty = false := by
    rw [Bool.eq_false_iff]
    intro empty
    exact joinParts_ne_empty proper some (String.isEmpty_iff.mp empty)
  rw [ofParts, orHere, filled]
  rfl

theorem joinParts_append {first second : List String} (firstSome : first ≠ [])
    (secondSome : second ≠ []) :
    joinParts (first ++ second) = joinParts first ++ "/" ++ joinParts second :=
  String.intercalate_append_of_ne_nil firstSome secondSome

/-! ### Joining -/

private theorem parts_trailing_slash (path : String)
    (ends : path.toList.getLast? = some '/') (right : String) :
    parts (path ++ right) = parts path ++ parts right := by
  obtain ⟨front, spelled⟩ := List.getLast?_eq_some_iff.mp ends
  have cut : path = String.ofList front ++ "/" ++ "" := by
    apply String.toList_inj.mp
    rw [String.append_empty, String.toList_append, String.toList_ofList, spelled]
    rfl
  calc
    parts (path ++ right) = parts (String.ofList front ++ "/" ++ right) := by
      rw [cut, String.append_empty]
    _ = parts (String.ofList front ++ "/" ++ "") ++ parts right := by
      rw [parts_slash, parts_slash, parts_empty, List.append_nil]
    _ = parts path ++ parts right := by
      rw [← cut]

theorem parts_join {left right : String} (relative : isAbsolute right = false) :
    parts (join left right) = parts left ++ parts right := by
  unfold join
  rw [relative]
  simp only [Bool.false_eq_true, if_false]
  split
  · rename_i direct
    rcases Bool.or_eq_true_iff.mp direct with empty | slash
    · rw [String.isEmpty_iff.mp empty, String.empty_append, parts_empty, List.nil_append]
    · exact parts_trailing_slash left (eq_of_beq slash) right
  · exact parts_slash left right

theorem parts_tidy (path : String) : parts (tidy path) = parts path := by
  have taken := parts_joinParts (fun _ member => isComponent_of_mem_parts member : ∀ part ∈
    parts path, IsComponent part)
  have after (front : String) (ends : front.toList.getLast? = some '/') (none : parts front = []) :
      parts (front ++ joinParts (parts path)) = parts path := by
    rw [parts_trailing_slash front ends, none, taken, List.nil_append]
  have one := after "/" rfl rfl
  have two := after "//" rfl rfl
  unfold tidy anchor
  split
  · exact one
  · exact two
  · exact one
  · rw [String.empty_append, taken]

/-! ### Leaving something out -/

private theorem intercalate_sublist (separator : List Char) {fewer more : List (List Char)}
    (within : fewer.Sublist more) :
    (separator.intercalate fewer).Sublist (separator.intercalate more) := by
  induction within with
  | slnil => exact List.Sublist.refl _
  | @cons fewer more piece within ih =>
      cases more with
      | nil =>
          rw [List.sublist_nil.mp within]
          exact List.nil_sublist _
      | cons next others =>
          rw [List.intercalate_cons_cons]
          exact ih.trans (List.sublist_append_right _ _)
  | @cons_cons fewer more piece within ih =>
      cases more with
      | nil =>
          cases List.sublist_nil.mp within
          exact List.Sublist.refl _
      | cons next others =>
          rw [List.intercalate_cons_cons]
          cases fewer with
          | nil =>
              rw [List.intercalate_singleton, List.append_assoc]
              exact List.sublist_append_left _ _
          | cons other rest =>
              rw [List.intercalate_cons_cons]
              exact List.Sublist.append (List.Sublist.refl _) ih

private theorem filter_splitOn_slashes (count : Nat) (rest : List Char) :
    ((List.replicate count '/' ++ rest).splitOn '/').filter counts
      = (rest.splitOn '/').filter counts := by
  induction count with
  | zero => rfl
  | succ count ih =>
      rw [List.replicate_succ, List.cons_append, ← pieces_eq_splitOn, pieces, pieces_eq_splitOn,
        List.filter_cons_of_neg (by decide), ih]

/-- The text of what is above a path is part of the path's. -/
theorem above_sublist (path : String) :
    (anchor path ++ joinParts (parts path).dropLast).toList.Sublist path.toList := by
  have after (count : Nat) (rest : List Char) (spelled : path.toList = List.replicate count '/' ++ rest) :
      (List.replicate count '/' ++ (joinParts (parts path).dropLast).toList).Sublist path.toList := by
    have fewer : (((rest.splitOn '/').filter counts).dropLast).Sublist (rest.splitOn '/') :=
      (List.dropLast_sublist _).trans List.filter_sublist
    have within := intercalate_sublist ['/'] fewer
    rw [List.intercalate_splitOn] at within
    have joined : (joinParts (parts path).dropLast).toList
        = ['/'].intercalate ((rest.splitOn '/').filter counts).dropLast := by
      rw [parts_eq, spelled, filter_splitOn_slashes, joinParts, String.toList_intercalate,
        ← List.map_dropLast, List.map_map]
      congr 1
      exact List.map_id'' (fun _ => String.toList_ofList) _
    rw [joined, spelled]
    exact List.Sublist.append (List.Sublist.refl _) within
  rw [String.toList_append]
  unfold anchor
  split
  · rename_i rest spelled
    exact after 1 _ spelled
  · rename_i rest spelled
    exact after 2 _ spelled
  · rename_i rest spelled
    exact after 1 _ spelled
  · exact after 0 _ rfl

/-! ### Normal paths -/

theorem anchor_of_relative {path : String} (relative : isAbsolute path = false) :
    anchor path = "" := by
  have first : path.toList.head? ≠ some '/' := by
    intro slash
    rw [isAbsolute, slash] at relative
    cases relative
  unfold anchor
  cases spelled : path.toList with
  | nil => rfl
  | cons char rest =>
      rw [spelled, List.head?_cons] at first
      have other : char ≠ '/' := fun same => first (congrArg some same)
      split
      · rename_i same; exact absurd (List.cons.inj same).1 other
      · rename_i same; exact absurd (List.cons.inj same).1 other
      · rename_i same; exact absurd (List.cons.inj same).1 other
      · rfl

private theorem push_mem {rooted : Bool} {stack : List String} {part other : String}
    (member : other ∈ push rooted stack part) : other ∈ stack ∨ other = part := by
  unfold push at member
  split at member
  · rcases List.mem_cons.mp member with rfl | inStack
    · exact Or.inr rfl
    · exact Or.inl inStack
  · rename_i isUp
    have up : part = ".." := by simpa using isUp
    subst up
    cases stack with
    | nil =>
        cases rooted with
        | true => cases member
        | false => exact Or.inr (List.mem_singleton.mp member)
    | cons top rest =>
        by_cases climbs : top = ".."
        · subst climbs
          simp only [BEq.rfl, if_true] at member
          rcases List.mem_cons.mp member with rfl | inStack
          · exact Or.inr rfl
          · exact Or.inl inStack
        · simp only [beq_false_of_ne climbs, Bool.false_eq_true, if_false] at member
          exact Or.inl (List.mem_cons_of_mem _ member)

theorem mem_of_mem_resolve {rooted : Bool} {components : List String} {part : String}
    (member : part ∈ resolve rooted components) : part ∈ components := by
  have general : ∀ (rest stack : List String), part ∈ rest.foldl (push rooted) stack →
      part ∈ stack ∨ part ∈ rest := by
    intro rest
    induction rest with
    | nil => intro stack present; exact Or.inl present
    | cons first others ih =>
        intro stack present
        rcases ih _ present with pushed | later
        · rcases push_mem pushed with below | rfl
          · exact Or.inl below
          · exact Or.inr List.mem_cons_self
        · exact Or.inr (List.mem_cons_of_mem _ later)
  rcases general components [] (List.mem_reverse.mp member) with impossible | found
  · cases impossible
  · exact found

theorem resolve_append_name (components : List String) {name : String} (named : name ≠ "..") :
    resolve true (components ++ [name]) = resolve true components ++ [name] := by
  rw [resolve, resolve, List.foldl_append, List.foldl_cons, List.foldl_nil, push.eq_def,
    if_pos (bne_iff_ne.mpr named), List.reverse_cons]

/-- A path that is the text for its components. -/
def IsSpelled (path : String) : Prop :=
  ofParts (parts path) = path

theorem normalize_of_relative {path : String} (relative : isAbsolute path = false) :
    normalize path = ofParts (resolve false (parts path)) := by
  rw [normalize, anchor_of_relative relative, relative, String.empty_append, ofParts]

theorem IsNormal.resolved {path : String} (normal : IsNormal path) :
    resolve false (parts path) = parts path := by
  have proper : ∀ part ∈ resolve false (parts path), IsComponent part :=
    fun part member => isComponent_of_mem_parts (mem_of_mem_resolve member)
  have taken := parts_ofParts proper
  rw [← normalize_of_relative normal.relative, normal.shortest] at taken
  exact taken.symm

theorem IsNormal.spelled {path : String} (normal : IsNormal path) : IsSpelled path := by
  have shortest := normal.shortest
  rw [normalize_of_relative normal.relative, normal.resolved] at shortest
  exact shortest

theorem IsSpelled.injective {left right : String} (leftSpelled : IsSpelled left)
    (rightSpelled : IsSpelled right) (same : parts left = parts right) : left = right := by
  rw [← leftSpelled, ← rightSpelled, same]

theorem IsSpelled.eq_joinParts {path : String} (spelled : IsSpelled path) (below : path ≠ ".") :
    parts path ≠ [] ∧ path = joinParts (parts path) := by
  have some : parts path ≠ [] := by
    intro none
    apply below
    rw [← spelled, none]
    rfl
  have joined := ofParts_eq_joinParts (fun _ member => isComponent_of_mem_parts member) some
  exact ⟨some, Eq.trans (Eq.symm spelled) joined⟩

theorem slash_ne_here (path : String) {name : String} (proper : IsComponent name) :
    path ++ "/" ++ name ≠ "." := by
  intro same
  have none := congrArg parts same
  rw [parts_slash, parts_of_isComponent proper, parts_here] at none
  exact List.append_ne_nil_of_right_ne_nil _ (List.cons_ne_nil name []) none

/-- Something in a directory that is spelled is spelled. -/
theorem IsSpelled.slash {path name : String} (spelled : IsSpelled path) (below : path ≠ ".")
    (proper : IsComponent name) : IsSpelled (path ++ "/" ++ name) := by
  obtain ⟨some, joined⟩ := spelled.eq_joinParts below
  have both : parts (path ++ "/" ++ name) = parts path ++ [name] := by
    rw [parts_slash, parts_of_isComponent proper]
  have components : ∀ part ∈ parts path ++ [name], IsComponent part :=
    both ▸ fun _ member => isComponent_of_mem_parts member
  rw [IsSpelled, both, ofParts_eq_joinParts components (List.append_ne_nil_of_left_ne_nil some _),
    joinParts_append some (List.cons_ne_nil name []), joinParts_singleton, ← joined]

/-! ### Stems -/

/-- A path that a slash and a name can follow. -/
structure IsStem (path : String) : Prop where
  filled : path ≠ ""
  noSlash : path.toList.getLast? ≠ some '/'

theorem isStem_of_isComponent {part : String} (proper : IsComponent part) : IsStem part :=
  ⟨proper.notEmpty, fun slash => proper.oneName (List.mem_of_getLast? slash)⟩

theorem isStem_slash (left : String) {right : String} (stem : IsStem right) :
    IsStem (left ++ "/" ++ right) := by
  have filled : right.toList ≠ [] := fun empty => stem.filled (String.toList_eq_nil_iff.mp empty)
  have last : (left ++ "/" ++ right).toList.getLast? = right.toList.getLast? := by
    rw [String.toList_append, List.getLast?_append, List.getLast?_eq_some_getLast filled,
      Option.some_or]
  constructor
  · intro empty
    have chars := congrArg String.toList empty
    rw [String.toList_append] at chars
    exact filled (List.append_eq_nil_iff.mp chars).2
  · rw [last]
    exact stem.noSlash

theorem isStem_joinParts {components : List String}
    (proper : ∀ part ∈ components, IsComponent part) (some : components ≠ []) :
    IsStem (joinParts components) := by
  induction components with
  | nil => exact absurd rfl some
  | cons first rest ih =>
      cases rest with
      | nil =>
          rw [joinParts_singleton]
          exact isStem_of_isComponent (proper first List.mem_cons_self)
      | cons second others =>
          rw [joinParts_cons_cons]
          exact isStem_slash first
            (ih (fun part member => proper part (List.mem_cons_of_mem _ member))
              (List.cons_ne_nil second others))

theorem IsSpelled.stem {path : String} (spelled : IsSpelled path) : IsStem path := by
  by_cases below : path = "."
  · subst below
    exact ⟨by decide, by decide⟩
  · obtain ⟨some, joined⟩ := spelled.eq_joinParts below
    rw [joined]
    exact isStem_joinParts (fun _ member => isComponent_of_mem_parts member) some

/-- A path as it is seen from the root is not one from the top. -/
theorem IsSpelled.notAbsolute {path : String} (spelled : IsSpelled path) : isAbsolute path = false := by
  rw [← spelled]
  exact isAbsolute_ofParts fun part member => isComponent_of_mem_parts member

theorem isAbsolute_append {left : String} (filled : left ≠ "") (right : String) :
    isAbsolute (left ++ right) = isAbsolute left := by
  rw [isAbsolute, isAbsolute, String.toList_append]
  cases spelled : left.toList with
  | nil => exact absurd (String.toList_eq_nil_iff.mp spelled) filled
  | cons _ _ => rfl

theorem isAbsolute_slash {left : String} (stem : IsStem left) (right : String) :
    isAbsolute (left ++ "/" ++ right) = isAbsolute left := by
  rw [String.append_assoc]
  exact isAbsolute_append stem.filled _

theorem isAbsolute_join {left right : String} (relative : isAbsolute right = false) :
    isAbsolute (join left right) = isAbsolute left := by
  unfold join
  rw [relative, if_neg (by decide)]
  by_cases empty : left = ""
  · subst empty
    exact relative
  · split
    · exact isAbsolute_append empty _
    · rw [String.append_assoc]
      exact isAbsolute_append empty _

theorem join_of_stem {left right : String} (stem : IsStem left)
    (relative : isAbsolute right = false) : join left right = left ++ "/" ++ right := by
  have filled : left.isEmpty = false := by
    rw [Bool.eq_false_iff]
    intro empty
    exact stem.filled (String.isEmpty_iff.mp empty)
  have open_ : (left.toList.getLast? == some '/') = false := beq_false_of_ne stem.noSlash
  rw [join, relative, filled, open_]
  rfl

end RefSync.Path
