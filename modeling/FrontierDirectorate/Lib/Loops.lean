import Mathlib

/-!
# Endless loops

`while (true)` with its `break` and `return`: a turn either goes round again with
new locals or leaves the loop with a result.
-/
namespace Loops

variable {σ β : Type*}

inductive Turn (σ β : Type*)
  | again (locals : σ)
  | done (result : β)

/-- The loop entered with the given locals is left with the given result. -/
inductive Runs (turn : σ → Turn σ β) : σ → β → Prop
  | done {s : σ} {result : β} (h : turn s = .done result) : Runs turn s result
  | again {s next : σ} {result : β} (h : turn s = .again next) (rest : Runs turn next result) :
      Runs turn s result

/-- A measure that falls with every further turn bounds the loop. -/
theorem runs_of_measure {turn : σ → Turn σ β} (measure : σ → Nat)
    (h : ∀ s next, turn s = .again next → measure next < measure s) (s : σ) :
    ∃ result, Runs turn s result := by
  induction hm : measure s using Nat.strong_induction_on generalizing s with
  | _ m ih =>
      cases hturn : turn s with
      | done result => exact ⟨result, .done hturn⟩
      | again next =>
          have hlt := h s next hturn
          rw [hm] at hlt
          obtain ⟨result, hrest⟩ := ih (measure next) hlt next rfl
          exact ⟨result, .again hturn hrest⟩

end Loops
