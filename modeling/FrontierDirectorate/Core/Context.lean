import Mathlib
import FrontierDirectorate.Core.Types
import FrontierDirectorate.Lib.Accounting

/-!
# Contexts and allocation

The limits and the allocator callback of a context are fixed; its counters are
the state every allocating call threads through.
-/
namespace FrontierDirectorate
open Accounting

/-- The fixed part of a context. `allocate n size` tells whether the `n`-th request to the
allocator callback, for `size` bytes, returns memory. -/
structure FdContext where
  maxFileBytes : UInt64
  maxLiveWorldBytes : UInt64
  allocate : Nat → UInt64 → Bool

/-- The counters of a context, and the number of requests its callback has seen. -/
structure Ledger where
  requests : Nat
  allocationCalls : UInt64
  deallocationCalls : UInt64
  liveBytes : UInt64
  peakLiveBytes : UInt64
  liveHandles : UInt32
deriving DecidableEq, Repr

/-- The counters `fd_context_create` starts with. -/
def Ledger.zero : Ledger := ⟨0, 0, 0, 0, 0, 0⟩

/-- No request to the callback returns null. -/
def FdContext.NeverFails (context : FdContext) : Prop :=
  ∀ request size, context.allocate request size = true

/-- The next `count` requests for `size` bytes all return memory. -/
def FdContext.Grants (context : FdContext) (s : Ledger) (count : Nat) (size : UInt64) : Prop :=
  ∀ i < count, context.allocate (s.requests + i) size = true

theorem FdContext.NeverFails.grants {context : FdContext} (h : context.NeverFails) (s : Ledger)
    (count : Nat) (size : UInt64) : context.Grants s count size := fun _ _ => h _ _

/-- `fd_context_alloc`; the result says whether the pointer is non-null. -/
def fdContextAlloc (context : FdContext) (size : UInt64) : StateM Ledger Bool := fun s =>
  if size = 0 then (false, s)
  else if context.allocate s.requests size then
    let live := s.liveBytes + size
    (true, { s with
      requests := s.requests + 1
      allocationCalls := s.allocationCalls + 1
      liveBytes := live
      peakLiveBytes := if s.peakLiveBytes < live then live else s.peakLiveBytes })
  else (false, { s with requests := s.requests + 1 })

/-- `fd_context_free`; `memory` tells whether the pointer is non-null. -/
def fdContextFree (memory : Bool) (size : UInt64) : StateM Ledger Unit := fun s =>
  if memory then
    ((), { s with
      deallocationCalls := s.deallocationCalls + 1
      liveBytes := s.liveBytes - size })
  else ((), s)

def addHandle : StateM Ledger Unit := fun s => ((), { s with liveHandles := s.liveHandles + 1 })

def dropHandle : StateM Ledger Unit := fun s => ((), { s with liveHandles := s.liveHandles - 1 })

/-- What a caller owns: bytes obtained from the context and handles. -/
abbrev Owned := UInt64 × UInt32

def Ledger.owned (s : Ledger) : Owned := (s.liveBytes, s.liveHandles)

/-- `bytes` more live bytes. -/
def Owned.withBytes (d : Owned) (bytes : UInt64) : Owned := (d.1 + bytes, d.2)

/-- What is owned while `memory` is held, if it was obtained. -/
def Owned.holding (d : Owned) (memory : Bool) (size : UInt64) : Owned :=
  if memory then d.withBytes size else d

theorem holds_alloc (context : FdContext) (d : Owned) (size : UInt64) :
    Holds Ledger.owned d (fdContextAlloc context size) fun memory => d.holding memory size := by
  intro b s hs
  simp only [Ledger.owned, Prod.ext_iff, Prod.fst_add, Prod.snd_add] at hs
  unfold fdContextAlloc
  split
  · simp [Ledger.owned, Owned.holding, Prod.ext_iff, hs]
  · split
    · simp [Ledger.owned, Owned.holding, Owned.withBytes, Prod.ext_iff, hs, UInt64.add_assoc]
    · simp [Ledger.owned, Owned.holding, Prod.ext_iff, hs]

theorem holds_free (d : Owned) (memory : Bool) (size : UInt64) :
    Holds Ledger.owned (d.holding memory size) (fdContextFree memory size) fun _ => d := by
  intro b s hs
  cases memory with
  | false => exact hs
  | true =>
      simp only [Owned.holding, if_true, Ledger.owned, Owned.withBytes, Prod.ext_iff, Prod.fst_add,
        Prod.snd_add] at hs
      simp only [fdContextFree, if_true, Ledger.owned, Prod.ext_iff, Prod.fst_add, Prod.snd_add]
      refine ⟨?_, hs.2⟩
      rw [hs.1]
      grind

theorem holds_addHandle (d : Owned) :
    Holds Ledger.owned d addHandle fun _ => (d.1, d.2 + 1) := by
  intro b s hs
  simp only [Ledger.owned, Prod.ext_iff, Prod.fst_add, Prod.snd_add] at hs
  simp [addHandle, Ledger.owned, Prod.ext_iff, hs, UInt32.add_assoc]

theorem holds_dropHandle (d : Owned) :
    Holds Ledger.owned (d.1, d.2 + 1) dropHandle fun _ => d := by
  intro b s hs
  simp only [Ledger.owned, Prod.ext_iff, Prod.fst_add, Prod.snd_add] at hs
  simp only [dropHandle, Ledger.owned, Prod.ext_iff, Prod.fst_add, Prod.snd_add]
  refine ⟨hs.1, ?_⟩
  rw [hs.2]
  grind

theorem fdContextAlloc_neverFails {context : FdContext} (h : context.NeverFails) {size : UInt64}
    (hsize : size ≠ 0) (s : Ledger) : (fdContextAlloc context size s).1 = true := by
  simp only [fdContextAlloc, if_neg hsize, h s.requests size, if_true]

end FrontierDirectorate
