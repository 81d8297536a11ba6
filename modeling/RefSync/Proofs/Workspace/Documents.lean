/-
From a workspace to its documents and back. A workspace that is written the way paths are
leads to its manifest, its config and its artifact, and each of them back to it, so no two
workspaces share a document.
-/

import Mathlib.Data.List.TakeWhile
import RefSync.Proofs.Path.Components
import RefSync.Workspace

namespace RefSync

namespace Path

theorem splitLast_append (above name : List Char) (oneName : '/' ∉ name) (filled : above ≠ [])
    (ends : above.getLast? ≠ some '/') :
    splitLast (above ++ '/' :: name) = (above, name) := by
  have last : ((above ++ '/' :: name).reverse.takeWhile (· != '/')).reverse = name := by
    have noSlash : ∀ char ∈ name.reverse, (char != '/') = true := by
      intro char member
      rw [bne_iff_ne]
      intro slash
      exact oneName (slash ▸ List.mem_reverse.mp member)
    rw [List.reverse_append, List.reverse_cons, List.append_assoc,
      List.takeWhile_append_of_pos noSlash, List.singleton_append, List.takeWhile_cons_of_neg,
      List.append_nil, List.reverse_reverse]
    decide
  have head : (above ++ '/' :: name).take ((above ++ '/' :: name).length - name.length)
      = above ++ ['/'] := by
    have split : above ++ '/' :: name = (above ++ ['/']) ++ name := by
      rw [List.append_assoc, List.singleton_append]
    rw [split, List.length_append, Nat.add_sub_cancel, List.take_left']
    rfl
  have trimmed : ((above ++ ['/']).reverse.dropWhile (· == '/')).reverse = above := by
    rw [List.reverse_append, List.reverse_singleton, List.singleton_append,
      List.dropWhile_cons_of_pos (by decide)]
    cases reversed : above.reverse with
    | nil => exact absurd (List.reverse_eq_nil_iff.mp reversed) filled
    | cons char rest =>
        have atEnd : above.getLast? = some char := by
          rw [List.getLast?_eq_head?_reverse, reversed, List.head?_cons]
        have notSlash : ¬(char == '/') = true := by
          rw [beq_iff_eq]
          intro slash
          exact ends (by rw [atEnd, slash])
        rw [List.dropWhile_cons, if_neg notSlash, ← reversed, List.reverse_reverse]
  unfold splitLast
  simp only [last, head, trimmed]
  rw [if_neg]
  simpa using filled

private theorem splitLast_slash {above : String} (stem : IsStem above) {name : String}
    (oneName : '/' ∉ name.toList) :
    splitLast (above ++ "/" ++ name).toList = (above.toList, name.toList) := by
  have chars : (above ++ "/" ++ name).toList = above.toList ++ '/' :: name.toList := by
    rw [String.toList_append, String.toList_append, List.append_assoc]
    rfl
  have filled : above.toList ≠ [] := fun empty => stem.filled (String.toList_eq_nil_iff.mp empty)
  rw [chars, splitLast_append _ _ oneName filled stem.noSlash]

theorem directory_slash {above : String} (stem : IsStem above) {name : String}
    (oneName : '/' ∉ name.toList) : directory (above ++ "/" ++ name) = above := by
  rw [directory, splitLast_slash stem oneName, String.ofList_toList]

theorem baseName_slash {above : String} (stem : IsStem above) {name : String}
    (oneName : '/' ∉ name.toList) : baseName (above ++ "/" ++ name) = name := by
  rw [baseName, splitLast_slash stem oneName, String.ofList_toList]

theorem splitLast_of_no_slash {text : List Char} (noSlash : '/' ∉ text) :
    splitLast text = ([], text) := by
  have all : ∀ char ∈ text.reverse, (char != '/') = true := by
    intro char member
    rw [bne_iff_ne]
    intro slash
    exact noSlash (slash ▸ List.mem_reverse.mp member)
  have last : (text.reverse.takeWhile (· != '/')).reverse = text := by
    rw [List.takeWhile_eq_self_iff.mpr all, List.reverse_reverse]
  unfold splitLast
  simp only [last, Nat.sub_self, List.take_zero, List.reverse_nil, List.dropWhile_nil,
    List.isEmpty_nil, if_true]

theorem baseName_of_no_slash {path : String} (noSlash : '/' ∉ path.toList) :
    baseName path = path := by
  rw [baseName, splitLast_of_no_slash noSlash, String.ofList_toList]

theorem directory_of_no_slash {path : String} (noSlash : '/' ∉ path.toList) :
    directory path = "" := by
  rw [directory, splitLast_of_no_slash noSlash]

/-- A spelled path is one name, or the last name is in something that is spelled. -/
theorem IsSpelled.last {path : String} (spelled : IsSpelled path) (below : path ≠ ".") :
    ∃ name, IsComponent name ∧ (parts path).getLast? = some name
      ∧ (path = name ∨ ∃ above, IsStem above ∧ path = above ++ "/" ++ name) := by
  obtain ⟨some, joined⟩ := spelled.eq_joinParts below
  obtain ⟨front, name, split⟩ := (List.eq_nil_or_concat (parts path)).resolve_left some
  rw [List.concat_eq_append] at split
  have proper : ∀ part ∈ parts path, IsComponent part :=
    fun _ member => isComponent_of_mem_parts member
  have last : (parts path).getLast? = Option.some name := by
    rw [split, List.getLast?_concat]
  rw [split] at joined proper
  refine ⟨name, proper name (List.mem_append_right front List.mem_cons_self), last, ?_⟩
  cases front with
  | nil =>
      rw [List.nil_append, joinParts_singleton] at joined
      exact Or.inl joined
  | cons first rest =>
      have stem : IsStem (joinParts (first :: rest)) :=
        isStem_joinParts (fun part member => proper part (List.mem_append_left _ member))
          (List.cons_ne_nil first rest)
      rw [joinParts_append (List.cons_ne_nil first rest) (List.cons_ne_nil name []), joinParts_singleton] at joined
      exact Or.inr ⟨_, stem, joined⟩

/-- What a spelled path is in is spelled as well, or not spelled out at all. -/
theorem IsSpelled.directory {path : String} (spelled : IsSpelled path) :
    directory path = "" ∨ IsStem (directory path) := by
  by_cases below : path = "."
  · left
    rw [below]
    exact directory_of_no_slash (by decide)
  · rcases spelled.last below with ⟨name, proper, _, rfl | ⟨above, stem, rfl⟩⟩
    · exact Or.inl (directory_of_no_slash proper.oneName)
    · rw [directory_slash stem proper.oneName]
      exact Or.inr stem

theorem IsSpelled.baseName {path : String} (spelled : IsSpelled path) (below : path ≠ ".") :
    (parts path).getLast? = some (baseName path) := by
  rcases spelled.last below with ⟨name, proper, last, same | ⟨above, stem, same⟩⟩
  · rw [last, same, baseName_of_no_slash proper.oneName]
  · rw [last, same, baseName_slash stem proper.oneName]

end Path

open Path

/-! ### The names of documents -/

theorem isName_manifestFile : IsName manifestFile := by
  decide

theorem isName_configFile : IsName configFile := by
  decide

theorem isName_artifactDirectory : IsName Config.artifactDirectory := by
  decide

theorem isName_artifactFile : IsName Config.artifactFile := by
  decide

namespace Workspace

theorem last_manifestPath (workspace : String) :
    (parts (manifestPath workspace)).getLast? = some manifestFile := by
  rw [manifestPath, parts_join (by decide), parts_of_isComponent isName_manifestFile.component,
    List.getLast?_concat]

theorem last_configPath (workspace : String) :
    (parts (configPath workspace)).getLast? = some configFile := by
  rw [configPath, parts_join (by decide), parts_of_isComponent isName_configFile.component,
    List.getLast?_concat]

theorem isStem_artifactDirectory (workspace : String) :
    IsStem (workspace ++ "/" ++ Config.artifactDirectory) :=
  isStem_slash workspace (isStem_of_isComponent isName_artifactDirectory.component)

section

variable {workspace : String} (stem : IsStem workspace)

include stem

theorem manifestPath_of_stem : manifestPath workspace = workspace ++ "/" ++ manifestFile :=
  join_of_stem stem (by decide)

theorem configPath_of_stem : configPath workspace = workspace ++ "/" ++ configFile :=
  join_of_stem stem (by decide)

theorem artifactPath_of_stem :
    artifactPath workspace
      = workspace ++ "/" ++ Config.artifactDirectory ++ "/" ++ Config.artifactFile := by
  have inside : Config.artifactPath = Config.artifactDirectory ++ "/" ++ Config.artifactFile := rfl
  rw [artifactPath, join_of_stem stem (by decide), inside]
  simp only [String.append_assoc]

theorem last_artifactPath : (parts (artifactPath workspace)).getLast? = some Config.artifactFile := by
  rw [artifactPath_of_stem stem, parts_slash, parts_of_isComponent isName_artifactFile.component,
    List.getLast?_concat]

theorem baseName_manifestPath : baseName (manifestPath workspace) = manifestFile := by
  rw [manifestPath_of_stem stem]
  exact baseName_slash stem isName_manifestFile.component.oneName

theorem baseName_configPath : baseName (configPath workspace) = configFile := by
  rw [configPath_of_stem stem]
  exact baseName_slash stem isName_configFile.component.oneName

theorem baseName_artifactPath : baseName (artifactPath workspace) = Config.artifactFile := by
  rw [artifactPath_of_stem stem]
  exact baseName_slash (isStem_artifactDirectory workspace) isName_artifactFile.component.oneName

theorem ofDocument_manifestPath : ofDocument (manifestPath workspace) = workspace := by
  rw [ofDocument, manifestPath_of_stem stem, directory_slash stem isName_manifestFile.component.oneName]

theorem ofDocument_configPath : ofDocument (configPath workspace) = workspace := by
  rw [ofDocument, configPath_of_stem stem, directory_slash stem isName_configFile.component.oneName]

theorem ofArtifact_artifactPath : ofArtifact (artifactPath workspace) = workspace := by
  rw [ofArtifact, artifactPath_of_stem stem,
    directory_slash (isStem_artifactDirectory workspace) isName_artifactFile.component.oneName,
    directory_slash stem isName_artifactDirectory.component.oneName]

/-- No workspace has the manifest of the root. -/
theorem manifestPath_ne_root : manifestPath workspace ≠ manifestFile := by
  intro same
  have back := ofDocument_manifestPath stem
  rw [same, ofDocument, directory_of_no_slash (by decide)] at back
  exact stem.filled back.symm

theorem manifestPath_injective {other : String} (otherStem : IsStem other)
    (same : manifestPath workspace = manifestPath other) : workspace = other := by
  rw [← ofDocument_manifestPath stem, same, ofDocument_manifestPath otherStem]

theorem artifactPath_injective {other : String} (otherStem : IsStem other)
    (same : artifactPath workspace = artifactPath other) : workspace = other := by
  rw [← ofArtifact_artifactPath stem, same, ofArtifact_artifactPath otherStem]

end

/-- A config in a directory is that of a workspace. -/
theorem configPath_ofDocument {path : String} (spelled : IsSpelled path)
    (stem : IsStem (ofDocument path)) (base : baseName path = configFile) :
    path = configPath (ofDocument path) := by
  have below : path ≠ "." := by
    rintro rfl
    exact absurd base (by decide)
  obtain ⟨name, proper, _, rfl | ⟨above, aboveStem, rfl⟩⟩ := spelled.last below
  · exact absurd (directory_of_no_slash proper.oneName) stem.filled
  · rw [baseName_slash aboveStem proper.oneName] at base
    rw [ofDocument, directory_slash aboveStem proper.oneName, configPath_of_stem aboveStem, base]

end Workspace
end RefSync
