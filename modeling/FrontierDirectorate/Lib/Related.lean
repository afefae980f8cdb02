import Mathlib
import FrontierDirectorate.Lib.Checks

/-!
# Two runs side by side

`Related E R x y` says that two computations that may fail take the same turn:
both succeed with values related by `R`, or both fail with failures related by
`E`. The rules follow the shape of the program, so that a property of two runs is
proved stage by stage.
-/
namespace Checks

variable {ε ε' φ φ' α β γ δ ι : Type} {E : ε → ε' → Prop} {R : α → β → Prop} {S : γ → δ → Prop}

def Related (E : ε → ε' → Prop) (R : α → β → Prop) : Except ε α → Except ε' β → Prop
  | .ok a, .ok b => R a b
  | .error e, .error e' => E e e'
  | _, _ => False

theorem Related.ok {a : α} {y : Except ε' β} (h : Related E R (.ok a) y) :
    ∃ b, y = .ok b ∧ R a b := by
  cases y with
  | error e => exact h.elim
  | ok b => exact ⟨b, rfl, h⟩

theorem Related.error {e : ε} {y : Except ε' β} (h : Related E R (.error e) y) :
    ∃ e', y = .error e' ∧ E e e' := by
  cases y with
  | error e' => exact ⟨e', rfl, h⟩
  | ok b => exact h.elim

theorem Related.mono {R' : α → β → Prop} {x : Except ε α} {y : Except ε' β}
    (h : Related E R x y) (hR : ∀ a b, R a b → R' a b) : Related E R' x y := by
  cases x with
  | error e =>
      obtain ⟨e', rfl, he⟩ := h.error
      exact he
  | ok a =>
      obtain ⟨b, rfl, hab⟩ := h.ok
      exact hR a b hab

theorem Related.bind {x : Except ε α} {y : Except ε' β} {f : α → Except ε γ}
    {g : β → Except ε' δ} (h : Related E R x y) (hf : ∀ a b, R a b → Related E S (f a) (g b)) :
    Related E S (x >>= f) (y >>= g) := by
  cases x with
  | error e =>
      obtain ⟨e', rfl, he⟩ := h.error
      exact he
  | ok a =>
      obtain ⟨b, rfl, hab⟩ := h.ok
      exact hf a b hab

theorem Related.mapError {F : φ → φ' → Prop} {x : Except ε α} {y : Except ε' β} {f : ε → φ}
    {g : ε' → φ'} (h : Related E R x y) (hf : ∀ e e', E e e' → F (f e) (g e')) :
    Related F R (x.mapError f) (y.mapError g) := by
  cases x with
  | error e =>
      obtain ⟨e', rfl, he⟩ := h.error
      exact hf e e' he
  | ok a =>
      obtain ⟨b, rfl, hab⟩ := h.ok
      exact hab

theorem Related.map {x : Except ε α} {y : Except ε' β} {f : α → γ} {g : β → δ}
    (h : Related E R x y) (hf : ∀ a b, R a b → S (f a) (g b)) : Related E S (x.map f) (y.map g) := by
  cases x with
  | error e =>
      obtain ⟨e', rfl, he⟩ := h.error
      exact he
  | ok a =>
      obtain ⟨b, rfl, hab⟩ := h.ok
      exact hf a b hab

theorem related_mapM {f : ι → Except ε α} {g : ι → Except ε' α}
    (hbody : ∀ x, Related E Eq (f x) (g x)) (xs : List ι) :
    Related E Eq (xs.mapM f) (xs.mapM g) := by
  induction xs with
  | nil => exact rfl
  | cons x xs ih =>
      rw [List.mapM_cons, List.mapM_cons]
      refine Related.bind (hbody x) fun a b hab => ?_
      refine Related.bind ih fun as bs hs => ?_
      rw [hab, hs]
      exact rfl

/-- Loops over the same elements whose bodies keep the relation. -/
theorem related_forEach {f : α → ι → Except ε α} {g : β → ι → Except ε' β}
    (hbody : ∀ a b x, R a b → Related E R (f a x) (g b x)) (xs : List ι) {a : α} {b : β}
    (h : R a b) : Related E R (forEach xs f a) (forEach xs g b) := by
  induction xs generalizing a b with
  | nil => exact h
  | cons x xs ih => exact Related.bind (hbody a b x h) fun _ _ h => ih h

end Checks
