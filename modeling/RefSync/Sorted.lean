/-
Sorted lists. Sorting is by insertion, which is slow on long lists and open to
computation in a proof; items of equal rank keep their order.
-/

namespace RefSync

/-- Puts an item before the first one that it may precede. -/
def insertSorted {α : Type} (precedes : α → α → Bool) (item : α) : List α → List α
  | [] => [item]
  | head :: rest =>
      if precedes item head then item :: head :: rest
      else head :: insertSorted precedes item rest

def sortBy {α : Type} (precedes : α → α → Bool) : List α → List α
  | [] => []
  | item :: rest => insertSorted precedes item (sortBy precedes rest)

/-- Texts in the order of their code points. -/
def sortTexts (texts : List String) : List String :=
  sortBy (fun left right => decide (left ≤ right)) texts

/-- Whether texts are in front of others, or the same: the first difference decides. -/
def textsPrecede : List String → List String → Bool
  | [], _ => true
  | _ :: _, [] => false
  | left :: lefts, right :: rights =>
      if left == right then textsPrecede lefts rights else decide (left ≤ right)

section

variable {α : Type} {precedes : α → α → Bool}

theorem insertSorted_perm (item : α) (items : List α) :
    (insertSorted precedes item items).Perm (item :: items) := by
  induction items with
  | nil => exact List.Perm.refl _
  | cons head rest ih =>
      by_cases first : precedes item head = true
      · simp only [insertSorted, if_pos first, List.Perm.refl]
      · simp only [insertSorted, if_neg first]
        exact (ih.cons head).trans (List.Perm.swap item head rest)

theorem sortBy_perm (items : List α) : (sortBy precedes items).Perm items := by
  induction items with
  | nil => exact List.Perm.refl _
  | cons item rest ih => exact (insertSorted_perm item _).trans (ih.cons item)

theorem mem_sortBy {item : α} {items : List α} : item ∈ sortBy precedes items ↔ item ∈ items :=
  (sortBy_perm items).mem_iff

theorem mem_sortTexts {text : String} {texts : List String} :
    text ∈ sortTexts texts ↔ text ∈ texts :=
  mem_sortBy

theorem sortTexts_nodup {texts : List String} : (sortTexts texts).Nodup ↔ texts.Nodup :=
  (sortBy_perm texts).nodup_iff

theorem insertSorted_pairwise
    (transitive : ∀ first second third, precedes first second = true →
      precedes second third = true → precedes first third = true)
    (total : ∀ first second, precedes first second = true ∨ precedes second first = true)
    (item : α) (items : List α) (sorted : items.Pairwise (precedes · · = true)) :
    (insertSorted precedes item items).Pairwise (precedes · · = true) := by
  induction items with
  | nil => exact List.pairwise_singleton _ _
  | cons head rest ih =>
      obtain ⟨below, restSorted⟩ := List.pairwise_cons.mp sorted
      by_cases first : precedes item head = true
      · simp only [insertSorted, if_pos first]
        refine List.pairwise_cons.mpr ⟨?_, sorted⟩
        intro other present
        rcases List.mem_cons.mp present with rfl | inRest
        · exact first
        · exact transitive item head other first (below other inRest)
      · simp only [insertSorted, if_neg first]
        refine List.pairwise_cons.mpr ⟨?_, ih restSorted⟩
        intro other present
        rcases List.mem_cons.mp ((insertSorted_perm item rest).mem_iff.mp present) with rfl | inRest
        · exact (total head other).resolve_right first
        · exact below other inRest

theorem sortBy_pairwise
    (transitive : ∀ first second third, precedes first second = true →
      precedes second third = true → precedes first third = true)
    (total : ∀ first second, precedes first second = true ∨ precedes second first = true)
    (items : List α) : (sortBy precedes items).Pairwise (precedes · · = true) := by
  induction items with
  | nil => exact List.Pairwise.nil
  | cons item rest ih => exact insertSorted_pairwise transitive total item _ ih

end

theorem sortTexts_pairwise (texts : List String) : (sortTexts texts).Pairwise (· ≤ ·) := by
  let precedes (left right : String) : Bool := decide (left ≤ right)
  have transitive : ∀ first second third, precedes first second = true →
      precedes second third = true → precedes first third = true := fun _ _ _ first second =>
    decide_eq_true (String.le_trans (of_decide_eq_true first) (of_decide_eq_true second))
  have total : ∀ first second, precedes first second = true ∨ precedes second first = true :=
    fun first second => (String.le_total first second).imp decide_eq_true decide_eq_true
  exact (sortBy_pairwise transitive total texts).imp of_decide_eq_true

end RefSync
