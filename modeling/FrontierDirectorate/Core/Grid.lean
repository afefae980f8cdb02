import Mathlib
import FrontierDirectorate.Core.Validate

/-!
# The tile grid

Tile indexes as coordinates. The scan order of the neighbours is forgotten here:
two tiles of a map are neighbours exactly at Manhattan distance one.
-/
namespace FrontierDirectorate

section coordinates

variable {width height index near : Nat}

/-- A tile index below `width * height` has its row on the map. -/
theorem row_lt (hindex : index < width * height) : index / width < height :=
  Nat.div_lt_of_lt_mul hindex

theorem column_lt (hindex : index < width * height) : index % width < width := by
  apply Nat.mod_lt
  apply Nat.pos_of_ne_zero
  rintro rfl
  simp at hindex

theorem index_eq (width index : Nat) : index / width * width + index % width = index :=
  Nat.div_add_mod' index width

/-- Column and row of `y * width + x`. -/
theorem column_row {x y : Nat} (hx : x < width) :
    (y * width + x) % width = x ∧ (y * width + x) / width = y := by
  have hpos : 0 < width := Nat.zero_lt_of_lt hx
  constructor
  · rw [Nat.mul_add_mod', Nat.mod_eq_of_lt hx]
  · rw [Nat.add_comm, Nat.add_mul_div_right x y hpos, Nat.div_eq_of_lt hx, Nat.zero_add]

theorem index_lt {x y : Nat} (hx : x < width) (hy : y < height) : y * width + x < width * height := by
  calc y * width + x < y * width + width := Nat.add_lt_add_left hx _
    _ = (y + 1) * width := (Nat.succ_mul y width).symm
    _ ≤ height * width := Nat.mul_le_mul_right width hy
    _ = width * height := Nat.mul_comm height width

theorem fdManhattan_eq_one_iff {ax ay cx cy : Nat} : fdManhattan ax ay cx cy = 1 ↔
    (ay = cy ∧ (ax + 1 = cx ∨ cx + 1 = ax)) ∨ (ax = cx ∧ (ay + 1 = cy ∨ cy + 1 = ay)) := by
  unfold fdManhattan fdAbsDiffU32
  split <;> split <;> omega

theorem fdManhattan_comm (ax ay cx cy : Nat) : fdManhattan ax ay cx cy = fdManhattan cx cy ax ay := by
  unfold fdManhattan fdAbsDiffU32
  split <;> split <;> split <;> split <;> omega

end coordinates

/-- Two tiles of a map that share an edge. -/
def Adjacent (width index near : Nat) : Prop :=
  fdManhattan (index % width) (index / width) (near % width) (near / width) = 1

instance (width index near : Nat) : Decidable (Adjacent width index near) :=
  inferInstanceAs (Decidable (_ = 1))

section adjacency

variable {width height index near : Nat}

theorem Adjacent.symm (h : Adjacent width index near) : Adjacent width near index :=
  (fdManhattan_comm _ _ _ _).trans h

theorem Adjacent.ne (h : Adjacent width index near) : index ≠ near := by
  rintro rfl
  have h1 := fdManhattan_eq_one_iff.mp h
  omega

theorem mem_ite_singleton {condition : Prop} [Decidable condition] :
    near ∈ (if condition then [index] else []) ↔ condition ∧ near = index := by
  split <;> simp_all

theorem mem_neighbors : near ∈ neighbors width height index ↔
    (0 < index % width ∧ near = index - 1) ∨ (index % width + 1 < width ∧ near = index + 1) ∨
      (0 < index / width ∧ near = index - width) ∨
        (index / width + 1 < height ∧ near = index + width) := by
  unfold neighbors
  simp only [List.mem_append, mem_ite_singleton, or_assoc]

/-- The neighbour lists hold exactly the adjacent tiles of the map. -/
theorem mem_neighbors_iff (hindex : index < width * height) :
    near ∈ neighbors width height index ↔ near < width * height ∧ Adjacent width index near := by
  obtain ⟨x, y, hx, hy, rfl⟩ : ∃ x y, x < width ∧ y < height ∧ index = y * width + x :=
    ⟨index % width, index / width, column_lt hindex, row_lt hindex, (index_eq width index).symm⟩
  obtain ⟨hcolumn, hrow⟩ := column_row (y := y) hx
  rw [mem_neighbors, hcolumn, hrow]
  unfold Adjacent
  rw [hcolumn, hrow]
  constructor
  · rintro (⟨hpos, rfl⟩ | ⟨hlt, rfl⟩ | ⟨hpos, rfl⟩ | ⟨hlt, rfl⟩)
    · have heq : y * width + x - 1 = y * width + (x - 1) := by omega
      obtain ⟨hc, hr⟩ := column_row (y := y) (show x - 1 < width by omega)
      rw [heq, hc, hr]
      exact ⟨index_lt (by omega) hy, fdManhattan_eq_one_iff.mpr (by omega)⟩
    · obtain ⟨hc, hr⟩ := column_row (y := y) hlt
      rw [Nat.add_assoc, hc, hr]
      exact ⟨index_lt hlt hy, fdManhattan_eq_one_iff.mpr (by omega)⟩
    · obtain ⟨y, rfl⟩ : ∃ above, y = above + 1 := ⟨y - 1, by omega⟩
      have heq : (y + 1) * width + x - width = y * width + x := by
        rw [Nat.succ_mul]
        omega
      obtain ⟨hc, hr⟩ := column_row (y := y) hx
      rw [heq, hc, hr]
      exact ⟨index_lt hx (by omega), fdManhattan_eq_one_iff.mpr (by omega)⟩
    · have heq : y * width + x + width = (y + 1) * width + x := by
        rw [Nat.succ_mul]
        omega
      obtain ⟨hc, hr⟩ := column_row (y := y + 1) hx
      rw [heq, hc, hr]
      exact ⟨index_lt hx hlt, fdManhattan_eq_one_iff.mpr (by omega)⟩
  · rintro ⟨hnear, hadjacent⟩
    have hc := column_lt hnear
    have hr := row_lt hnear
    rw [← index_eq width near]
    rcases fdManhattan_eq_one_iff.mp hadjacent with ⟨heq, h | h⟩ | ⟨heq, h | h⟩
    · right; left
      rw [← heq, ← h]
      omega
    · left
      rw [← heq, ← h]
      omega
    · right; right; right
      refine ⟨h ▸ hr, ?_⟩
      rw [← heq, ← h, Nat.succ_mul]
      omega
    · right; right; left
      refine ⟨h ▸ Nat.succ_pos _, ?_⟩
      rw [← heq, ← h, Nat.succ_mul]
      omega

theorem neighbors_nodup (hindex : index < width * height) : (neighbors width height index).Nodup := by
  have hcolumn := column_lt hindex
  have hrow : 0 < index / width → width ≤ index := by
    intro h
    have := index_eq width index
    have := Nat.le_mul_of_pos_left width h
    omega
  unfold neighbors
  split <;> split <;> split <;> split <;> simp <;> omega

end adjacency

/-- Two tiles of the world that share an edge. -/
def World.Adjacent (world : World) (index near : Nat) : Prop :=
  FrontierDirectorate.Adjacent world.width index near

section bounds

variable {world : World} {index near : Nat}

theorem World.boundsHold.tileCount_eq (h : world.boundsHold) :
    world.tileCount = world.width * world.height := h.2.2.2.2.1

/-- The sizes of a map that passes the bounds check. -/
theorem World.boundsHold.sizes (h : world.boundsHold) :
    32 ≤ world.width ∧ world.width ≤ 256 ∧ 16 ≤ world.height ∧ world.height ≤ 128 ∧
      world.tileCount = world.width * world.height := by
  obtain ⟨h1, h2, h3, h4, h5, -⟩ := h
  exact ⟨h1, h2, h3, h4, h5⟩

theorem World.boundsHold.lt_max (h : world.boundsHold) (hindex : index < world.tileCount) :
    index < 32768 := Nat.lt_of_lt_of_le hindex h.2.2.2.2.2

theorem World.boundsHold.mem_neighbors (h : world.boundsHold) (hindex : index < world.tileCount) :
    near ∈ world.neighbors index ↔ near < world.tileCount ∧ world.Adjacent index near := by
  rw [h.tileCount_eq] at hindex ⊢
  exact mem_neighbors_iff hindex

theorem World.boundsHold.neighbors_lt (h : world.boundsHold) (hindex : index < world.tileCount)
    (hnear : near ∈ world.neighbors index) : near < world.tileCount :=
  ((h.mem_neighbors hindex).mp hnear).1

theorem World.boundsHold.neighbors_ne (h : world.boundsHold) (hindex : index < world.tileCount)
    (hnear : near ∈ world.neighbors index) : near ≠ uint32Max := by
  have hlt := h.lt_max (h.neighbors_lt hindex hnear)
  intro heq
  rw [heq] at hlt
  exact absurd hlt (by decide)

theorem World.boundsHold.neighbors_nodup (h : world.boundsHold) (hindex : index < world.tileCount) :
    (world.neighbors index).Nodup := by
  rw [h.tileCount_eq] at hindex
  exact FrontierDirectorate.neighbors_nodup hindex

end bounds

end FrontierDirectorate
