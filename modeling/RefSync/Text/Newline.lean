/-
Line ends of a document read as text: CR LF and a lone CR both become LF, so a
document means the same whichever editor saved it.
-/

namespace RefSync

def normalizeNewlines : List Char → List Char
  | [] => []
  | '\r' :: '\n' :: rest => '\n' :: normalizeNewlines rest
  | char :: rest => (if char = '\r' then '\n' else char) :: normalizeNewlines rest

theorem normalizeNewlines_of_not_mem {chars : List Char} (clean : '\r' ∉ chars) :
    normalizeNewlines chars = chars := by
  induction chars with
  | nil => rfl
  | cons char rest ih =>
      have other : char ≠ '\r' := fun same => clean (same ▸ List.mem_cons_self)
      have step : normalizeNewlines (char :: rest) = char :: normalizeNewlines rest := by
        rw [normalizeNewlines.eq_3 _ _ (by rintro _ rfl; exact absurd rfl other), if_neg other]
      rw [step, ih fun member => clean (List.mem_cons_of_mem _ member)]

end RefSync
