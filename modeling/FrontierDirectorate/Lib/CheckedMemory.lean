import Mathlib

/-!
# Memory with checked accesses

A block of memory is the list of its cells. An access outside the block has no result,
so that a program which ends has kept inside it. A cursor writes one piece after
another; what it has put is described by the pieces alone.
-/
namespace CheckedMemory

variable {α β γ : Type}

/-- The block with `cells` from `position` on. -/
def store (memory : List β) (position : Nat) (cells : List β) : Option (List β) :=
  if position + cells.length ≤ memory.length then
    some (memory.take position ++ (cells ++ memory.drop (position + cells.length)))
  else none

/-- The `length` cells from `position` on. -/
def load (memory : List β) (position length : Nat) : Option (List β) :=
  if position + length ≤ memory.length then some ((memory.drop position).take length) else none

/-- A callee that is given a part of the block as its whole memory. -/
def within (memory : List β) (position length : Nat) (call : List β → Option (α × List β)) :
    Option (α × List β) :=
  (load memory position length).bind fun part =>
    (call part).bind fun (result, part) =>
      (store memory position part).map fun memory => (result, memory)

section access

variable {before old behind cells : List β}

/-- A store replaces the cells in its place and no others. -/
theorem store_append (h : old.length = cells.length) :
    store (before ++ (old ++ behind)) before.length cells =
      some (before ++ (cells ++ behind)) := by
  have hfits : before.length + cells.length ≤ (before ++ (old ++ behind)).length := by
    simp only [List.length_append]
    omega
  have hbehind : (before ++ (old ++ behind)).drop (before.length + cells.length) = behind := by
    rw [← List.append_assoc]
    exact List.drop_left' (by rw [List.length_append, h])
  rw [store, if_pos hfits, List.take_left, hbehind]

theorem load_append (before cells behind : List β) :
    load (before ++ (cells ++ behind)) before.length cells.length = some cells := by
  have hfits : before.length + cells.length ≤ (before ++ (cells ++ behind)).length := by
    simp only [List.length_append]
    omega
  rw [load, if_pos hfits, List.drop_left, List.take_left]

/-- A callee that keeps the size of its memory only changes the part it was given. -/
theorem within_append {call : List β → Option (α × List β)} {a : α}
    (hcall : call old = some (a, cells)) (h : old.length = cells.length) :
    within (before ++ (old ++ behind)) before.length old.length call =
      some (a, before ++ (cells ++ behind)) := by
  simp only [within, load_append, hcall, store_append h, Option.bind_some, Option.map_some]

/-- Stores that follow one another are one store. -/
theorem store_store {memory : List β} {position : Nat} (first second : List β) :
    ((store memory position first).bind fun memory =>
      store memory (position + first.length) second) =
        store memory position (first ++ second) := by
  unfold store
  by_cases hfirst : position + first.length ≤ memory.length
  · rw [if_pos hfirst, Option.bind_some]
    have hfront : (memory.take position ++ first).length = position + first.length := by
      rw [List.length_append, List.length_take]
      omega
    have hlength : ((memory.take position ++ first) ++
        memory.drop (position + first.length)).length = memory.length := by
      rw [List.length_append, hfront, List.length_drop]
      omega
    rw [← List.append_assoc, hlength, List.length_append, ← Nat.add_assoc]
    by_cases hsecond : position + first.length + second.length ≤ memory.length
    · rw [if_pos hsecond, if_pos hsecond, List.take_left' hfront, ← List.drop_drop,
        List.drop_left' hfront, List.drop_drop]
      simp only [List.append_assoc]
    · rw [if_neg hsecond, if_neg hsecond]
  · rw [if_neg hfirst, Option.bind_none, if_neg]
    rw [List.length_append]
    omega

end access

/-- A block and the position of the next write. -/
structure Cursor (β : Type) where
  memory : List β
  position : Nat

/-- Programs that write at a cursor. -/
abbrev Writes (β α : Type) := StateT (Cursor β) Option α

/-- One piece, written at the cursor. -/
def put (cells : List β) : Writes β Unit := fun w => do
  let memory ← store w.memory w.position cells
  return ((), ⟨memory, w.position + cells.length⟩)

/-- The position of the next write. -/
def position : Writes β Nat := fun w => some (w.position, w)

/-- The `length` cells from `start` on, read back. -/
def readBack (start length : Nat) : Writes β (List β) := fun w =>
  (load w.memory start length).map fun cells => (cells, w)

/-- Behind the cells `before`, the program writes `cells` in their place and returns `a`. -/
def EmitsAt (before : List β) (m : Writes β α) (a : α) (cells : List β) : Prop :=
  ∀ room behind, room.length = cells.length →
    m ⟨before ++ (room ++ behind), before.length⟩ =
      some (a, ⟨before ++ (cells ++ behind), before.length + cells.length⟩)

section emits

variable {before first second : List β} {m : Writes β α} {a : α}

theorem emitsAt_put (before cells : List β) : EmitsAt before (put cells) () cells := by
  intro room behind hroom
  simp only [put, store_append hroom, Option.bind_eq_bind, Option.bind_some]
  rfl

/-- Pieces written one after another are one piece. -/
theorem put_put (first second : List β) :
    (put first >>= fun _ => put second) = put (first ++ second) := by
  funext w
  have hstore : _ = store w.memory w.position (first ++ second) := store_store first second
  change ((store w.memory w.position first).bind fun memory => some ((),
      (⟨memory, w.position + first.length⟩ : Cursor β))).bind (fun p => put second p.2) = _
  simp only [put, Option.bind_eq_bind, ← hstore, Option.bind_assoc, Option.bind_some,
    List.length_append, Nat.add_assoc]

theorem put_put_bind (first second : List β) (rest : Writes β α) :
    (put first >>= fun _ => put second >>= fun _ => rest) =
      (put (first ++ second) >>= fun _ => rest) := by
  rw [← put_put, bind_assoc]

theorem emitsAt_pure (before : List β) (a : α) : EmitsAt before (pure a) a [] := by
  intro room behind hroom
  rw [List.length_nil, List.length_eq_zero_iff] at hroom
  subst hroom
  rfl

theorem emitsAt_position (before : List β) : EmitsAt before position before.length [] := by
  intro room behind hroom
  rw [List.length_nil, List.length_eq_zero_iff] at hroom
  subst hroom
  rfl

/-- What has been written can be read back. -/
theorem emitsAt_readBack (front part last : List β) :
    EmitsAt (front ++ (part ++ last)) (readBack front.length part.length) part [] := by
  intro room behind hroom
  rw [List.length_nil, List.length_eq_zero_iff] at hroom
  subst hroom
  have hload : load ((front ++ (part ++ last)) ++ ([] ++ behind)) front.length part.length =
      some part := by
    rw [List.append_assoc, List.append_assoc]
    exact load_append front part _
  rw [readBack, hload]
  rfl

theorem EmitsAt.bind {f : α → Writes β γ} {c : γ} (hm : EmitsAt before m a first)
    (hf : EmitsAt (before ++ first) (f a) c second) :
    EmitsAt before (m >>= f) c (first ++ second) := by
  intro room behind hroom
  rw [List.length_append] at hroom
  obtain ⟨here, there, rfl, hhere⟩ : ∃ here there, room = here ++ there ∧
      here.length = first.length := by
    refine ⟨room.take first.length, room.drop first.length, ?_, ?_⟩
    · rw [List.take_append_drop]
    · rw [List.length_take]
      omega
  have hthere : there.length = second.length := by
    rw [List.length_append] at hroom
    omega
  have hstep := hm here (there ++ behind) hhere
  have hnext := hf there behind hthere
  rw [List.length_append, List.append_assoc] at hnext
  rw [List.append_assoc]
  change (m _).bind _ = _
  rw [hstep]
  change f a ⟨before ++ (first ++ (there ++ behind)), before.length + first.length⟩ = _
  rw [hnext, List.length_append]
  simp only [List.append_assoc, Nat.add_assoc]

/-- One piece after another. -/
theorem EmitsAt.seq {m : Writes β Unit} {n : Writes β α} (hm : EmitsAt before m () first)
    (hn : EmitsAt (before ++ first) n a second) :
    EmitsAt before (m >>= fun _ => n) a (first ++ second) := hm.bind hn

theorem EmitsAt.cast {cells : List β} (hm : EmitsAt before m a first) (h : first = cells) :
    EmitsAt before m a cells := h ▸ hm

/-- One program for each element. -/
theorem emitsAt_forM {xs : List γ} {body : γ → Writes β Unit} {piece : γ → List β}
    (hbody : ∀ x ∈ xs, ∀ before, EmitsAt before (body x) () (piece x)) (before : List β) :
    EmitsAt before (xs.forM body) () (xs.flatMap piece) := by
  induction xs generalizing before with
  | nil => exact emitsAt_pure before _
  | cons x xs ih =>
      rw [List.flatMap_cons]
      change EmitsAt before (body x >>= fun _ => xs.forM body) () _
      exact (hbody x List.mem_cons_self before).bind
        (ih (fun y hy => hbody y (List.mem_cons_of_mem x hy)) _)

/-- From the front of a block that is large enough: the pieces, and the rest as it was. -/
theorem EmitsAt.run {cells memory : List β} (hm : EmitsAt [] m a cells)
    (h : cells.length ≤ memory.length) :
    m ⟨memory, 0⟩ = some (a, ⟨cells ++ memory.drop cells.length, cells.length⟩) := by
  have hroom : (memory.take cells.length).length = cells.length := by
    rw [List.length_take]
    omega
  have hrun := hm (memory.take cells.length) (memory.drop cells.length) hroom
  rw [List.nil_append, List.take_append_drop, List.nil_append, List.length_nil,
    Nat.zero_add] at hrun
  exact hrun

end emits

end CheckedMemory
