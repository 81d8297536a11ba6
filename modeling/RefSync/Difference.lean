/-
Differences of lists taken as sets. What is missing or redundant comes out once,
in the order of the list it is taken from, so a document that is written again stays stable.
-/

namespace RefSync

variable {α : Type} [BEq α]

/-- First occurrences, in order. -/
def distinct : List α → List α
  | [] => []
  | item :: rest => item :: (distinct rest).filter (!· == item)

/-- What `target` has and `actual` lacks. -/
def missingItems (actual target : List α) : List α :=
  (distinct target).filter (!actual.contains ·)

/-- What `actual` has and `target` lacks. -/
def redundantItems (actual target : List α) : List α :=
  (distinct actual).filter (!target.contains ·)

/-- Equality of the lists as sets. -/
def sameItems (left right : List α) : Bool :=
  left.all right.contains && right.all left.contains

/-- Equality of the lists as arrangements of one set of the same length. -/
def sameArrangement (left right : List α) : Bool :=
  left.length == right.length && sameItems left right

theorem mem_distinct {α : Type} [BEq α] [LawfulBEq α] {item : α} {items : List α} :
    item ∈ distinct items ↔ item ∈ items := by
  induction items with
  | nil => simp [distinct]
  | cons head rest ih =>
      by_cases same : item = head <;> simp [distinct, ih, same]

theorem distinct_nodup {α : Type} [BEq α] [LawfulBEq α] (items : List α) :
    (distinct items).Nodup := by
  induction items with
  | nil => simp [distinct]
  | cons head rest ih =>
      simp only [distinct, List.nodup_cons, List.mem_filter, BEq.rfl, Bool.not_true,
        Bool.false_eq_true, and_false, not_false_eq_true, true_and]
      exact List.Pairwise.filter _ ih

theorem mem_missingItems {α : Type} [BEq α] [LawfulBEq α] {actual target : List α} {item : α} :
    item ∈ missingItems actual target ↔ item ∈ target ∧ item ∉ actual := by
  simp [missingItems, mem_distinct]

theorem mem_redundantItems {α : Type} [BEq α] [LawfulBEq α] {actual target : List α} {item : α} :
    item ∈ redundantItems actual target ↔ item ∈ actual ∧ item ∉ target := by
  simp [redundantItems, mem_distinct]

end RefSync
