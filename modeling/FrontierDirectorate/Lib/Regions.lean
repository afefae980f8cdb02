import Mathlib
import FrontierDirectorate.Lib.CheckedMemory

/-!
# A block cut into regions

A program that stores at computed positions of one block, and the block as a list of
regions. A store that stays in a region changes this region and leaves the others.
-/
namespace CheckedMemory

variable {α β γ : Type}

/-- Programs on one block of memory. -/
abbrev Stores (β α : Type) := StateT (List β) Option α

def storeAt (position : Nat) (cells : List β) : Stores β Unit := fun memory =>
  (store memory position cells).map fun memory => ((), memory)

def loadAt (position length : Nat) : Stores β (List β) := fun memory =>
  (load memory position length).map fun cells => (cells, memory)

/-- A callee that gets the `length` cells from `position` on. -/
def callAt (position length : Nat) (call : List β → Option (α × List β)) : Stores β α :=
  fun memory => within memory position length call

section stores

variable {p q : Nat} {first second : List β}

/-- Two stores of which the second goes on where the first ends. -/
theorem storeAt_storeAt (h : q = p + first.length) :
    (storeAt p first >>= fun _ => storeAt q second) = storeAt p (first ++ second) := by
  subst h
  funext memory
  change ((store memory p first).map fun memory => ((), memory)).bind
    (fun x => storeAt (p + first.length) second x.2) = _
  rw [storeAt, ← store_store first second]
  cases store memory p first with
  | none => rfl
  | some memory => rfl

theorem storeAt_storeAt_bind (h : q = p + first.length) (rest : Stores β α) :
    (storeAt p first >>= fun _ => storeAt q second >>= fun _ => rest) =
      (storeAt p (first ++ second) >>= fun _ => rest) := by
  rw [← storeAt_storeAt h, bind_assoc]

/-- A store over the front of an earlier one. -/
theorem storeAt_over (h : second.length ≤ first.length) :
    (storeAt p first >>= fun _ => storeAt p second) =
      storeAt p (second ++ first.drop second.length) := by
  funext memory
  have hlength : (second ++ first.drop second.length).length = first.length := by
    rw [List.length_append, List.length_drop]
    omega
  change ((store memory p first).map fun memory => ((), memory)).bind
    (fun x => storeAt p second x.2) = (store memory p _).map fun memory => ((), memory)
  by_cases hfits : p + first.length ≤ memory.length
  · obtain ⟨before, old, behind, rfl, rfl, hold⟩ : ∃ before old behind,
        memory = before ++ (old ++ behind) ∧ p = before.length ∧ old.length = first.length := by
      refine ⟨memory.take p, (memory.drop p).take first.length,
        (memory.drop p).drop first.length, ?_, ?_, ?_⟩
      · rw [List.take_append_drop, List.take_append_drop]
      · rw [List.length_take]
        omega
      · rw [List.length_take, List.length_drop]
        omega
    have hover : store (before ++ (first ++ behind)) before.length second =
        some (before ++ (second ++ (first.drop second.length ++ behind))) := by
      have hsplit : first ++ behind =
          first.take second.length ++ (first.drop second.length ++ behind) := by
        rw [← List.append_assoc, List.take_append_drop]
      rw [hsplit]
      refine store_append ?_
      rw [List.length_take]
      omega
    rw [store_append hold, store_append (hold.trans hlength.symm)]
    change (store (before ++ (first ++ behind)) before.length second).map _ = _
    rw [hover, List.append_assoc]
  · have hnone : store memory p first = none := if_neg hfits
    have hnone' : store memory p (second ++ first.drop second.length) = none := by
      rw [store, if_neg (by rw [hlength]; exact hfits)]
    rw [hnone, hnone']
    rfl

end stores

/-- The position at which a region starts. -/
def offset (parts : List (List β)) (i : Nat) : Nat := ((parts.take i).map List.length).sum

/-- The program takes the block of `parts` to the block of `parts'` and returns `a`. -/
def Turns (m : Stores β α) (a : α) (parts parts' : List (List β)) : Prop :=
  m parts.flatten = some (a, parts'.flatten)

section regions

variable {parts parts' parts'' : List (List β)} {old new cells : List β} {i p : Nat}

theorem length_take_flatten (parts : List (List β)) (i : Nat) :
    (parts.take i).flatten.length = offset parts i := by
  rw [List.length_flatten, offset]

/-- The block around one of its regions. -/
theorem flatten_region (h : parts[i]? = some old) : parts.flatten =
    (parts.take i).flatten ++ (old ++ (parts.drop (i + 1)).flatten) := by
  obtain ⟨hi, hget⟩ := List.getElem?_eq_some_iff.mp h
  have hsplit : parts = parts.take i ++ (old :: parts.drop (i + 1)) := by
    rw [← hget, List.cons_getElem_drop_succ, List.take_append_drop]
  have hflatten := congrArg List.flatten hsplit
  rw [List.flatten_append, List.flatten_cons] at hflatten
  exact hflatten

theorem flatten_set (h : parts[i]? = some old) (new : List β) : (parts.set i new).flatten =
    (parts.take i).flatten ++ (new ++ (parts.drop (i + 1)).flatten) := by
  obtain ⟨hi, -⟩ := List.getElem?_eq_some_iff.mp h
  rw [List.set_eq_take_append_cons_drop, if_pos hi, List.flatten_append, List.flatten_cons]

theorem Turns.bind {m : Stores β α} {a : α} {f : α → Stores β γ} {c : γ}
    (hm : Turns m a parts parts') (hf : Turns (f a) c parts' parts'') :
    Turns (m >>= f) c parts parts'' := by
  change (m parts.flatten).bind (fun x => f x.1 x.2) = _
  rw [hm]
  exact hf

/-- One program after another. -/
theorem Turns.seq {m : Stores β Unit} {n : Stores β α} {a : α} (hm : Turns m () parts parts')
    (hn : Turns n a parts' parts'') : Turns (m >>= fun _ => n) a parts parts'' := hm.bind hn

theorem turns_pure (a : α) (parts : List (List β)) : Turns (pure a) a parts parts := rfl

/-- A store over a whole region. -/
theorem turns_storeAt (i : Nat) (hold : parts[i]? = some old) (hlength : old.length = cells.length)
    (hp : p = offset parts i) : Turns (storeAt p cells) () parts (parts.set i cells) := by
  unfold Turns storeAt
  rw [hp, ← length_take_flatten, flatten_region hold, store_append hlength, flatten_set hold]
  rfl

/-- A region that is filled from its front: the next cells go into the room that is left. -/
theorem turns_grow {done room : List β} (i : Nat) (hold : parts[i]? = some (done ++ room))
    (hroom : cells.length ≤ room.length) (hp : p = offset parts i + done.length) :
    Turns (storeAt p cells) () parts
      (parts.set i ((done ++ cells) ++ room.drop cells.length)) := by
  have hfront : ((parts.take i).flatten ++ done).length = p := by
    rw [List.length_append, length_take_flatten, hp]
  have hsplit : parts.flatten = ((parts.take i).flatten ++ done) ++
      (room.take cells.length ++ (room.drop cells.length ++ (parts.drop (i + 1)).flatten)) := by
    rw [flatten_region hold, ← List.append_assoc (room.take cells.length),
      List.take_append_drop, List.append_assoc, List.append_assoc]
  unfold Turns storeAt
  rw [hsplit, ← hfront, store_append (by rw [List.length_take]; omega), flatten_set hold]
  simp only [List.append_assoc, Option.map_some]

/-- A callee in the room of a region. -/
theorem turns_callAt {done room : List β} {length : Nat} {call : List β → Option (α × List β)}
    {a : α} (i : Nat) (hold : parts[i]? = some (done ++ room)) (hlength : length ≤ room.length)
    (hp : p = offset parts i + done.length) (hcall : call (room.take length) = some (a, cells))
    (hkept : cells.length = length) :
    Turns (callAt p length call) a parts
      (parts.set i ((done ++ cells) ++ room.drop length)) := by
  have hpart : (room.take length).length = length := by
    rw [List.length_take]
    omega
  have hfront : ((parts.take i).flatten ++ done).length = p := by
    rw [List.length_append, length_take_flatten, hp]
  have hsplit : parts.flatten = ((parts.take i).flatten ++ done) ++
      (room.take length ++ (room.drop length ++ (parts.drop (i + 1)).flatten)) := by
    rw [flatten_region hold, ← List.append_assoc (room.take length),
      List.take_append_drop, List.append_assoc, List.append_assoc]
  have hwithin : within (((parts.take i).flatten ++ done) ++ (room.take length ++
      (room.drop length ++ (parts.drop (i + 1)).flatten))) _ _ call = _ :=
    within_append hcall (hpart.trans hkept.symm)
  rw [hpart, hfront] at hwithin
  unfold Turns callAt
  rw [hsplit, hwithin, flatten_set hold]
  simp only [List.append_assoc]

/-- Some regions in a row, read back. -/
theorem turns_loadAt (i n : Nat) {length : Nat} (hp : p = offset parts i)
    (hlength : length = (((parts.drop i).take n).flatten).length) :
    Turns (loadAt p length) ((parts.drop i).take n).flatten parts parts := by
  have hsplit : parts.flatten = (parts.take i).flatten ++
      (((parts.drop i).take n).flatten ++ ((parts.drop i).drop n).flatten) := by
    rw [← List.flatten_append, List.take_append_drop, ← List.flatten_append,
      List.take_append_drop]
  unfold Turns loadAt
  rw [hsplit, hp, ← length_take_flatten, hlength, load_append]
  rfl

end regions

/-- On regions of the sizes `shape`, the program turns `parts` into `parts'`, which has these
sizes again. -/
def Fills (shape : List Nat) (m : Stores β α) (a : α) (parts parts' : List (List β)) : Prop :=
  parts.map List.length = shape →
    Turns m a parts parts' ∧ parts'.map List.length = shape

section shape

variable {shape : List Nat} {parts parts' parts'' : List (List β)} {cells : List β} {p : Nat}

theorem offset_eq_shape (h : parts.map List.length = shape) (i : Nat) :
    offset parts i = (shape.take i).sum := by rw [offset, List.map_take, h]

theorem length_eq_shape (h : parts.map List.length = shape) (i n : Nat) :
    (((parts.drop i).take n).flatten).length = ((shape.drop i).take n).sum := by
  rw [List.length_flatten, List.map_take, List.map_drop, h]

theorem region_of_shape {size : Nat} (h : parts.map List.length = shape) {i : Nat}
    (hsize : shape[i]? = some size) : ∃ old, parts[i]? = some old ∧ old.length = size := by
  rw [← h, List.getElem?_map] at hsize
  exact Option.map_eq_some_iff.mp hsize

theorem shape_set (h : parts.map List.length = shape) {i : Nat}
    (hsize : shape[i]? = some cells.length) : (parts.set i cells).map List.length = shape := by
  obtain ⟨hi, hget⟩ := List.getElem?_eq_some_iff.mp hsize
  rw [List.map_set, h, ← hget, List.set_getElem_self]

theorem Fills.bind {m : Stores β α} {a : α} {f : α → Stores β γ} {c : γ}
    (hm : Fills shape m a parts parts') (hf : Fills shape (f a) c parts' parts'') :
    Fills shape (m >>= f) c parts parts'' := by
  intro h
  obtain ⟨hfirst, hshape⟩ := hm h
  obtain ⟨hsecond, hshape'⟩ := hf hshape
  exact ⟨hfirst.bind hsecond, hshape'⟩

theorem Fills.seq {m : Stores β Unit} {n : Stores β α} {a : α}
    (hm : Fills shape m () parts parts') (hn : Fills shape n a parts' parts'') :
    Fills shape (m >>= fun _ => n) a parts parts'' := hm.bind hn

theorem Fills.cast {m : Stores β α} {a : α} (hm : Fills shape m a parts parts')
    (h : parts' = parts'') : Fills shape m a parts parts'' := h ▸ hm

theorem fills_pure (shape : List Nat) (a : α) (parts : List (List β)) :
    Fills shape (pure a) a parts parts := fun h => ⟨turns_pure a parts, h⟩

theorem fills_storeAt (i : Nat) (hsize : shape[i]? = some cells.length)
    (hp : p = (shape.take i).sum) :
    Fills shape (storeAt p cells) () parts (parts.set i cells) := by
  intro h
  obtain ⟨old, hold, hlength⟩ := region_of_shape h hsize
  exact ⟨turns_storeAt i hold hlength (hp.trans (offset_eq_shape h i).symm), shape_set h hsize⟩

/-- The regions `i` to `i + n` read back. -/
theorem fills_loadAt (i n : Nat) {length : Nat} (hp : p = (shape.take i).sum)
    (hlength : length = ((shape.drop i).take n).sum) :
    Fills shape (loadAt p length) ((parts.drop i).take n).flatten parts parts := by
  intro h
  refine ⟨turns_loadAt i n (hp.trans (offset_eq_shape h i).symm) ?_, h⟩
  rw [hlength, length_eq_shape h]

end shape

end CheckedMemory
