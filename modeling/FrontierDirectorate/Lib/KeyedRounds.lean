import Mathlib

/-!
# Keyed rounds

A block cipher or a counter-based generator applies one invertible round again and
again while the two words of its key advance. The rounds are undone last key first.
-/
namespace KeyedRounds

variable {X K L : Type*} (round unround : X → K → L → X) (nextK : K → K) (nextL : L → L)

/-- `n` rounds; the key advances after each. -/
def rounds : Nat → X → K → L → X
  | 0, value, _, _ => value
  | n + 1, value, key0, key1 => rounds n (round value key0 key1) (nextK key0) (nextL key1)

/-- `n` rounds backwards. -/
def unrounds : Nat → X → K → L → X
  | 0, value, _, _ => value
  | n + 1, value, key0, key1 =>
      unround (unrounds n value (nextK key0) (nextL key1)) key0 key1

variable {round unround}

theorem unrounds_rounds (h : ∀ value key0 key1, unround (round value key0 key1) key0 key1 = value)
    (n : Nat) (value : X) (key0 : K) (key1 : L) :
    unrounds unround nextK nextL n (rounds round nextK nextL n value key0 key1) key0 key1 =
      value := by
  induction n generalizing value key0 key1 with
  | zero => rfl
  | succ n ih => rw [rounds, unrounds, ih, h]

theorem rounds_unrounds (h : ∀ value key0 key1, round (unround value key0 key1) key0 key1 = value)
    (n : Nat) (value : X) (key0 : K) (key1 : L) :
    rounds round nextK nextL n (unrounds unround nextK nextL n value key0 key1) key0 key1 =
      value := by
  induction n generalizing key0 key1 with
  | zero => rfl
  | succ n ih => rw [unrounds, rounds, h, ih]

/-- Invertible rounds permute the values, whatever the key and however many there are. -/
theorem rounds_bijective
    (hleft : ∀ value key0 key1, unround (round value key0 key1) key0 key1 = value)
    (hright : ∀ value key0 key1, round (unround value key0 key1) key0 key1 = value)
    (n : Nat) (key0 : K) (key1 : L) :
    Function.Bijective fun value => rounds round nextK nextL n value key0 key1 :=
  Function.bijective_iff_has_inverse.mpr
    ⟨fun value => unrounds unround nextK nextL n value key0 key1,
      fun value => unrounds_rounds nextK nextL hleft n value key0 key1,
      fun value => rounds_unrounds nextK nextL hright n value key0 key1⟩

end KeyedRounds
