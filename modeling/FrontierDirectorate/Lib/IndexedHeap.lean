import Mathlib

/-!
# A binary heap with an index

A binary heap in an array of nodes, together with the position of each node, so
that the key of a node already in the heap may be lowered in place. The order is
a parameter of the operations, since the keys live outside the heap.
-/
namespace IndexedHeap

variable {ν : Type}

structure Heap (ν : Type) where
  nodes : Nat → ν
  positions : ν → Option Nat
  size : Nat

namespace Heap

variable (less : ν → ν → Bool)

/-- The least of a node and its children. -/
def smallest (heap : Heap ν) (current : Nat) : Nat :=
  let left := current * 2 + 1
  let right := left + 1
  let smallest := if left < heap.size ∧ less (heap.nodes left) (heap.nodes current) then left
    else current
  if right < heap.size ∧ less (heap.nodes right) (heap.nodes smallest) then right else smallest

theorem smallest_cases (heap : Heap ν) (current : Nat) :
    heap.smallest less current = current ∨
      (heap.smallest less current = current * 2 + 1 ∧ current * 2 + 1 < heap.size) ∨
      (heap.smallest less current = current * 2 + 2 ∧ current * 2 + 2 < heap.size) := by
  unfold smallest
  by_cases hright : current * 2 + 1 + 1 < heap.size ∧ less (heap.nodes (current * 2 + 1 + 1))
      (heap.nodes (if current * 2 + 1 < heap.size ∧
        less (heap.nodes (current * 2 + 1)) (heap.nodes current) then current * 2 + 1 else current))
  · right
    right
    exact ⟨if_pos hright, hright.1⟩
  · rw [if_neg hright]
    split
    · next hleft => exact .inr (.inl ⟨rfl, hleft.1⟩)
    · exact .inl rfl

variable [DecidableEq ν]

def swap (heap : Heap ν) (left right : Nat) : Heap ν :=
  let nodes := Function.update (Function.update heap.nodes left (heap.nodes right)) right
    (heap.nodes left)
  { heap with
    nodes := nodes
    positions := Function.update (Function.update heap.positions (nodes left) (some left))
      (nodes right) (some right) }

@[simp] theorem swap_size (heap : Heap ν) (left right : Nat) :
    (heap.swap left right).size = heap.size := rfl

/-- Moves the node at `current` towards the root while it is below its parent. -/
def up (heap : Heap ν) (current : Nat) : Heap ν :=
  if 0 < current then
    let parent := (current - 1) / 2
    if less (heap.nodes current) (heap.nodes parent) then up (heap.swap current parent) parent
    else heap
  else heap
termination_by current
decreasing_by omega

/-- Moves the node at `current` towards the leaves while a child is below it. -/
def down (heap : Heap ν) (current : Nat) : Heap ν :=
  let smallest := heap.smallest less current
  if smallest = current then heap else down (heap.swap current smallest) smallest
termination_by heap.size - current
decreasing_by
  rename_i hne
  have := smallest_cases less heap current
  simp only [swap_size]
  omega

def insert (heap : Heap ν) (node : ν) : Heap ν :=
  up less
    { nodes := Function.update heap.nodes heap.size node
      positions := Function.update heap.positions node (some heap.size)
      size := heap.size + 1 } heap.size

/-- The root and the heap without it. -/
def pop (heap : Heap ν) : ν × Heap ν :=
  let result := heap.nodes 0
  let size := heap.size - 1
  let positions := Function.update heap.positions result none
  if 0 < size then
    let last := heap.nodes size
    (result, down less
      { nodes := Function.update heap.nodes 0 last
        positions := Function.update positions last (some 0)
        size := size } 0)
  else (result, { heap with positions := positions, size := size })

end Heap

end IndexedHeap
