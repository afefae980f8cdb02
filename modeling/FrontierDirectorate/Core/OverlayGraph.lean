import Mathlib
import FrontierDirectorate.Lib.InducedPath
import FrontierDirectorate.Core.Grid

/-!
# Overlay tiles as a graph

The tiles that carry one overlay bit, their neighbours as the validator counts
them, and the scans that test every tile before they count it.
-/
namespace FrontierDirectorate
open InducedPath

namespace World

variable (world : World) (overlay : UInt32)

/-- The neighbours that carry the overlay. -/
def near (index : Nat) : List Nat := (world.neighbors index).filter (world.hasOverlay · overlay)

/-- A tile of the map with the overlay. -/
def Carries (index : Nat) : Prop := index < world.tileCount ∧ world.hasOverlay index overlay = true

/-- A tile with a single neighbour that carries the overlay. -/
def isEnd (index : Nat) : Bool := (world.near overlay index).length == 1

/-- All tiles of the map with the overlay, in index order. -/
def overlayTiles : List Nat := (List.range world.tileCount).filter (world.hasOverlay · overlay)

/-- The tiles of an overlay, in an order in which exactly the consecutive ones touch. -/
structure InducedPath (path : List Nat) : Prop where
  mem_iff : ∀ index, index ∈ path ↔ world.Carries overlay index
  induced : Induced world.Adjacent path

end World

section graph

variable {world : World} {overlay : UInt32}

theorem mem_overlayTiles {index : Nat} :
    index ∈ world.overlayTiles overlay ↔ world.Carries overlay index := by
  rw [World.overlayTiles, List.mem_filter, List.mem_range]
  rfl

theorem overlayTiles_nodup : (world.overlayTiles overlay).Nodup := List.nodup_range.filter _

theorem overlayNeighbourhood (hbounds : world.boundsHold) :
    Neighbourhood world.Adjacent (world.Carries overlay) (world.near overlay) where
  symm := fun _ _ h => h.symm
  irrefl := fun _ h => h.ne rfl
  mem := by
    rintro index ⟨hindex, -⟩ near
    rw [World.near, List.mem_filter, hbounds.mem_neighbors hindex, and_right_comm]
    rfl
  nodup := by
    rintro index ⟨hindex, -⟩
    exact (hbounds.neighbors_nodup hindex).filter _

theorem max_not_carries (hbounds : world.boundsHold) : ¬ world.Carries overlay uint32Max := by
  rintro ⟨hindex, -⟩
  exact absurd (hbounds.lt_max hindex) (by decide)

theorem max_not_near (hbounds : world.boundsHold) {index : Nat} (h : world.Carries overlay index) :
    uint32Max ∉ world.near overlay index := by
  intro hmem
  exact max_not_carries hbounds (((overlayNeighbourhood hbounds).mem index h _).mp hmem).1

/-- The neighbour count in terms of the neighbours that carry the overlay. -/
theorem neighborCount_eq (index previous next : Nat) :
    fdNeighborCountWithOverlay world index overlay previous next =
      (((world.near overlay index).filter (· ≠ previous)).length,
        ((world.near overlay index).filter (· ≠ previous)).getLastD next) := by
  have hfilter : (world.neighbors index).filter (fun candidate =>
      candidate != previous && world.hasOverlay candidate overlay) =
      (world.near overlay index).filter (· ≠ previous) := by
    rw [World.near, List.filter_filter]
    apply List.filter_congr
    intro candidate _
    simp only [bne, ne_eq, decide_not, beq_eq_decide]
  rw [fdNeighborCountWithOverlay, hfilter]

/-- Without a previous tile every neighbour counts. -/
theorem degree_eq (hbounds : world.boundsHold) {index : Nat} (h : world.Carries overlay index)
    (next : Nat) : (fdNeighborCountWithOverlay world index overlay uint32Max next).1 =
      (world.near overlay index).length := by
  have hfilter : (world.near overlay index).filter (· ≠ uint32Max) = world.near overlay index := by
    apply List.filter_eq_self.mpr
    intro near hnear
    rw [decide_eq_true_iff]
    rintro rfl
    exact max_not_near hbounds h hnear
  rw [neighborCount_eq, hfilter]

namespace World.InducedPath

variable {path middle : List Nat} {first last : Nat}

/-- The tiles of the overlay in another order. -/
theorem perm (h : world.InducedPath overlay path) : path.Perm (world.overlayTiles overlay) := by
  apply (List.perm_ext_iff_of_nodup h.induced.nodup overlayTiles_nodup).mpr
  intro index
  rw [h.mem_iff, mem_overlayTiles]

theorem reverse (h : world.InducedPath overlay path) : world.InducedPath overlay path.reverse where
  mem_iff := by
    intro index
    rw [List.mem_reverse, h.mem_iff]
  induced := h.induced.reverse

/-- Every tile of the path passes the degree test of the scans. -/
theorem degree (hbounds : world.boundsHold)
    (h : world.InducedPath overlay (first :: (middle ++ [last]))) {index : Nat}
    (hindex : world.Carries overlay index) :
    (world.near overlay index).length = 1 ∨ (world.near overlay index).length = 2 := by
  obtain ⟨hfirst, hlast, hmiddle⟩ := h.induced.endpoints (overlayNeighbourhood hbounds) h.mem_iff
  have hmem := (h.mem_iff index).mpr hindex
  rw [List.mem_cons, List.mem_append, List.mem_singleton] at hmem
  rcases hmem with rfl | hmem | rfl
  · exact .inl hfirst
  · exact .inr (hmiddle index hmem)
  · exact .inl hlast

/-- The ends of the path are the tiles with a single neighbour. -/
theorem filter_isEnd (hbounds : world.boundsHold)
    (h : world.InducedPath overlay (first :: (middle ++ [last]))) :
    (first :: (middle ++ [last])).filter (world.isEnd overlay) = [first, last] := by
  obtain ⟨hfirst, hlast, hmiddle⟩ := h.induced.endpoints (overlayNeighbourhood hbounds) h.mem_iff
  have hnone : middle.filter (world.isEnd overlay) = [] := by
    apply List.filter_eq_nil_iff.mpr
    intro index hindex
    rw [isEnd, hmiddle index hindex]
    decide
  have hend : ∀ index, (world.near overlay index).length = 1 → world.isEnd overlay index = true := by
    intro index hone
    rw [isEnd, hone]
    rfl
  rw [List.filter_cons_of_pos (hend first hfirst), List.filter_append, hnone, List.nil_append,
    List.filter_cons_of_pos (hend last hlast), List.filter_nil]

theorem count_ends (hbounds : world.boundsHold)
    (h : world.InducedPath overlay (first :: (middle ++ [last]))) :
    ((world.overlayTiles overlay).filter (world.isEnd overlay)).length = 2 := by
  rw [← (h.perm.filter _).length_eq, h.filter_isEnd hbounds]
  rfl

end World.InducedPath

/-- A list of two elements or more has two ends. -/
theorem exists_ends {α : Type*} {path : List α} (h : 2 ≤ path.length) :
    ∃ first middle last, path = first :: (middle ++ [last]) := by
  cases path with
  | nil => cases h
  | cons first rest =>
      rcases List.eq_nil_or_concat rest with rfl | ⟨middle, last, rfl⟩
      · simp at h
      · exact ⟨first, middle, last, by rw [List.concat_eq_append]⟩

/-- The vertices of a walk that is as long as the overlay are all of its tiles. -/
theorem inducedPath_of_walk (hbounds : world.boundsHold) {path : List Nat} {start : Nat}
    (hstart : world.Carries overlay start) (hhead : path.head? = some start)
    (hwalk : Walk (world.near overlay) uint32Max path)
    (hlength : (world.overlayTiles overlay).length ≤ path.length) :
    world.InducedPath overlay path := by
  have hgraph : Neighbourhood world.Adjacent (world.Carries overlay) (world.near overlay) :=
    overlayNeighbourhood hbounds
  have hmarked := hwalk.members_marked hgraph (by
    intro index hindex
    rw [hhead] at hindex
    cases hindex
    exact hstart)
  have hinduced := hwalk.induced hgraph hmarked (by
    intro index hindex
    rw [hhead] at hindex
    cases hindex
    exact max_not_near hbounds hstart)
  refine ⟨?_, hinduced⟩
  intro index
  constructor
  · exact hmarked index
  · intro hindex
    exact mem_of_length_eq hinduced.nodup
      (fun near hnear => mem_overlayTiles.mpr (hmarked near hnear)) hlength index
      (mem_overlayTiles.mpr hindex)

end graph

end FrontierDirectorate
