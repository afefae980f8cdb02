import Mathlib

/-!
# Ranks

A list of items whose keys increase, and how many of them come before a position.
The items mark some of the positions; the others are numbered by what is left of
their position after the marks before it.
-/
namespace Ranks

variable {α : Type*} (key : α → Nat)

/-- The keys increase along the list. -/
def Increasing (items : List α) : Prop := items.Pairwise (key · < key ·)

variable {key} {items : List α}

end Ranks
