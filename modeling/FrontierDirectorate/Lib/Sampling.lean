import Mathlib

/-!
# Rejection sampling

A word below `bound` is drawn from words below `range` by rejecting the first
`range % bound` of them: what is left is a whole number of copies of the residues.
-/
namespace Sampling

/-- Over any whole number of periods every residue is hit equally often. -/
theorem card_residue_periods (start bound copies residue : Nat) (h : residue < bound) :
    ((Finset.Ico start (start + copies * bound)).filter (· % bound = residue)).card = copies := by
  induction copies with
  | zero => simp
  | succ copies ih =>
      have hperiod : Function.Periodic (· % bound = residue) bound := fun n => by
        simp only [Nat.add_mod_right]
      have hlast := Nat.filter_Ico_card_eq_of_periodic (start + copies * bound) bound
        (· % bound = residue) hperiod
      have hone : Nat.count (· % bound = residue) bound = 1 := by
        rw [Nat.count_eq_card_filter_range, Finset.card_eq_one]
        refine ⟨residue, Finset.ext fun n => ?_⟩
        simp only [Finset.mem_filter, Finset.mem_range, Finset.mem_singleton]
        constructor
        · rintro ⟨hn, hresidue⟩
          rw [← hresidue, Nat.mod_eq_of_lt hn]
        · rintro rfl
          exact ⟨h, Nat.mod_eq_of_lt h⟩
      have hsplit : Finset.Ico start (start + (copies + 1) * bound) =
          Finset.Ico start (start + copies * bound) ∪
            Finset.Ico (start + copies * bound) (start + copies * bound + bound) := by
        rw [Finset.Ico_union_Ico_eq_Ico (by omega) (by omega)]
        congr 1
        ring
      rw [hsplit, Finset.filter_union, Finset.card_union_of_disjoint, ih, hlast, hone]
      exact Finset.disjoint_filter_filter (Finset.Ico_disjoint_Ico_consecutive _ _ _)

/-- The accepted words hit every residue `range / bound` times. -/
theorem card_accepted (range bound residue : Nat) (h : residue < bound) :
    ((Finset.Ico (range % bound) range).filter (· % bound = residue)).card = range / bound := by
  have hcopies : range % bound + range / bound * bound = range := by
    rw [Nat.mul_comm]
    exact Nat.mod_add_div range bound
  calc ((Finset.Ico (range % bound) range).filter (· % bound = residue)).card
      = ((Finset.Ico (range % bound) (range % bound + range / bound * bound)).filter
          (· % bound = residue)).card := by rw [hcopies]
    _ = range / bound := card_residue_periods _ _ _ _ h

/-- A search through rows of words, row by row, is the search through all of them in order. -/
theorem findSome?_rows {α β γ δ : Type*} (rows : List α) (columns : List β) (word : α → β → γ)
    (accept : γ → Option δ) :
    (rows.findSome? fun row => columns.findSome? fun column => accept (word row column)) =
      (rows.flatMap fun row => columns.map (word row)).findSome? accept := by
  induction rows with
  | nil => rfl
  | cons row rows ih =>
      rw [List.findSome?_cons, List.flatMap_cons, List.findSome?_append, ← ih, List.findSome?_map]
      change _ = (columns.findSome? fun column => accept (word row column)).or _
      cases columns.findSome? fun column => accept (word row column) with
      | none => rfl
      | some found => rfl

end Sampling
