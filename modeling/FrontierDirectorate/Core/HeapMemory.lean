import Mathlib
import FrontierDirectorate.Core.Road
import FrontierDirectorate.Lib.HeapLaws

/-!
# The heap in its arrays

`fd_heap_internal` of `fd_generate.c` over its three arrays, in machine words. A read
or a write outside its array, a node read at or above the size of the heap, and a
loop that outruns its fuel have no result.
-/
namespace FrontierDirectorate
open IndexedHeap

/-- `fd_heap_internal`; each array has a word for each of the `n` tiles. -/
structure HeapMemory (n : Nat) where
  nodes : Vector UInt32 n
  positions : Vector UInt32 n
  distances : Vector UInt32 n
  size : UInt32

/-- `UINT32_MAX`, the position of a node that is not in the heap. -/
abbrev noPosition : UInt32 := 0xffffffff

section words

variable {n : Nat}

def readWord (words : Vector UInt32 n) (i : UInt32) : Option UInt32 := words[i.toNat]?

def writeWord (words : Vector UInt32 n) (i value : UInt32) : Option (Vector UInt32 n) :=
  if h : i.toNat < n then some (words.set i.toNat value h) else none

end words

namespace HeapMemory

variable {n : Nat}

/-- `heap->nodes[i]` of a position in use. -/
def nodeAt (m : HeapMemory n) (i : UInt32) : Option UInt32 :=
  if i < m.size then readWord m.nodes i else none

def fdHeapLess (m : HeapMemory n) (leftNode rightNode : UInt32) : Option Bool := do
  let leftDistance ← readWord m.distances leftNode
  let rightDistance ← readWord m.distances rightNode
  return decide (leftDistance < rightDistance ∨
    (leftDistance = rightDistance ∧ leftNode < rightNode))

def fdHeapSwap (m : HeapMemory n) (left right : UInt32) : Option (HeapMemory n) := do
  let value ← m.nodeAt left
  let other ← m.nodeAt right
  let nodes ← writeWord m.nodes left other
  let nodes ← writeWord nodes right value
  let positions ← writeWord m.positions (← readWord nodes left) left
  let positions ← writeWord positions (← readWord nodes right) right
  return { m with nodes := nodes, positions := positions }

/-- `fd_heap_up`, in at most `fuel` rounds. -/
def fdHeapUp : (fuel : Nat) → HeapMemory n → (current : UInt32) → Option (HeapMemory n)
  | fuel, m, current =>
    if 0 < current then
      match fuel with
      | 0 => none
      | fuel + 1 => do
          let parent := (current - 1) / 2
          if ← m.fdHeapLess (← m.nodeAt current) (← m.nodeAt parent) then
            fdHeapUp fuel (← m.fdHeapSwap current parent) parent
          else some m
    else some m

/-- The child at `child` if it is in the heap and below the node at `smallest`. -/
def pickSmaller (m : HeapMemory n) (child smallest : UInt32) : Option UInt32 :=
  if child < m.size then do
    if ← m.fdHeapLess (← m.nodeAt child) (← m.nodeAt smallest) then return child
    else return smallest
  else some smallest

/-- `fd_heap_down`, in at most `fuel` rounds. -/
def fdHeapDown : (fuel : Nat) → HeapMemory n → (current : UInt32) → Option (HeapMemory n)
  | fuel, m, current => do
    let left := current * 2 + 1
    let right := left + 1
    let smallest ← m.pickSmaller left current
    let smallest ← m.pickSmaller right smallest
    if smallest = current then some m
    else
      match fuel with
      | 0 => none
      | fuel + 1 => do fdHeapDown fuel (← m.fdHeapSwap current smallest) smallest

def fdHeapInsert (m : HeapMemory n) (node : UInt32) : Option (HeapMemory n) := do
  let position := m.size
  let nodes ← writeWord m.nodes position node
  let positions ← writeWord m.positions node position
  let m := { m with nodes := nodes, positions := positions, size := m.size + 1 }
  m.fdHeapUp m.size.toNat position

def fdHeapPop (m : HeapMemory n) : Option (UInt32 × HeapMemory n) := do
  let result ← m.nodeAt 0
  let size := m.size - 1
  let positions ← writeWord m.positions result noPosition
  let m := { m with positions := positions, size := size }
  if 0 < size then
    let nodes ← writeWord m.nodes 0 (← readWord m.nodes size)
    let positions ← writeWord m.positions (← readWord nodes 0) 0
    let m := { m with nodes := nodes, positions := positions }
    return (result, ← m.fdHeapDown size.toNat 0)
  else return (result, m)

/-- The store to `distances` in front of an insertion or a lowering. -/
def setDistance (m : HeapMemory n) (node distance : UInt32) : Option (HeapMemory n) := do
  return { m with distances := ← writeWord m.distances node distance }

/-- Lowering the distance of a node of the heap: `fd_heap_up` at its recorded position. -/
def lowerDistance (m : HeapMemory n) (node distance : UInt32) : Option (HeapMemory n) := do
  let m ← m.setDistance node distance
  m.fdHeapUp m.size.toNat (← readWord m.positions node)

end HeapMemory

end FrontierDirectorate
