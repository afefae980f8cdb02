import Mathlib
import FrontierDirectorate.Core.Validate

/-!
# The nine invariants as a proposition

The bit masks of the validation report taken apart: a world passes exactly when
each condition holds and the stored land count is the counted one.
-/
namespace FrontierDirectorate

/-- Everything a passing report says. -/
structure World.Invariants (world : World) : Prop where
  bounds : world.boundsHold
  landCoast : world.landCoastHolds = true
  coverage : (scanTiles world).coverageHolds
  hydrology : world.hydrologyHolds = true
  settlements : world.settlementsHold = true
  corridor : world.corridorHolds = true
  ownership : world.ownershipHolds = true
  landCount : world.landTileCount.toNat = (scanTiles world).land

/-- The mask arithmetic of the report. -/
theorem failed_eq_zero_iff (bounds coast coverage hydrology settlements corridor ownership : Bool) :
    fdInvariantAll &&& ~~~ (setIf ownership (setIf ownership (setIf corridor (setIf corridor
      (setIf settlements (setIf hydrology (setIf coverage (setIf coast (setIf bounds 0
        fdInvariantBounds) fdInvariantLandCoast) fdInvariantTerrainCoverage)
        fdInvariantHydrology) fdInvariantSettlements) fdInvariantRoadCorridor)
        fdInvariantObjectiveReachable) fdInvariantOwnership) fdInvariantGraphTileAgreement) = 0 ↔
    bounds ∧ coast ∧ coverage ∧ hydrology ∧ settlements ∧ corridor ∧ ownership := by
  cases bounds <;> cases coast <;> cases coverage <;> cases hydrology <;> cases settlements <;>
    cases corridor <;> cases ownership <;> decide

theorem or_landCoast_ne_zero (failed : UInt64) : failed ||| fdInvariantLandCoast ≠ 0 := by
  intro h
  have hbit : (failed ||| fdInvariantLandCoast).toNat.testBit 1 = true := by
    rw [UInt64.toNat_or, Nat.testBit_or]
    exact Bool.or_eq_true_iff.mpr (.inr (by decide))
  rw [h] at hbit
  exact absurd hbit (by decide)

theorem World.valid_iff (world : World) : world.Valid ↔ world.Invariants := by
  have hmask := failed_eq_zero_iff world.boundsHold world.landCoastHolds
    (scanTiles world).coverageHolds world.hydrologyHolds world.settlementsHold world.corridorHolds
    world.ownershipHolds
  simp only [decide_eq_true_eq] at hmask
  simp only [World.Valid, fdWorldValidateInternal, World.passedInvariants]
  constructor
  · intro h
    split at h
    · exact absurd h (or_landCoast_ne_zero _)
    · next hcount =>
        obtain ⟨h1, h2, h3, h4, h5, h6, h7⟩ := hmask.mp h
        exact ⟨h1, h2, h3, h4, h5, h6, h7, not_not.mp hcount⟩
  · rintro ⟨h1, h2, h3, h4, h5, h6, h7, hcount⟩
    rw [if_neg (not_not.mpr hcount)]
    exact hmask.mpr ⟨h1, h2, h3, h4, h5, h6, h7⟩

section congruence

variable {v w : World}

/-- The map as the validator sees it. -/
structure SameMap (v w : World) : Prop where
  width : v.config.width = w.config.width
  height : v.config.height = w.config.height
  tiles : v.tiles = w.tiles
  entities : v.entities = w.entities
  region : v.region = w.region

/-- The walks read the size and the tiles of the map only. -/
theorem SameMap.riverWalk_eq (h : SameMap v w) : riverWalk v = riverWalk w := by
  obtain ⟨hwidth, hheight, htiles, -, -⟩ := h
  obtain ⟨config⟩ := v
  obtain ⟨config'⟩ := w
  cases config
  cases config'
  simp only at hwidth hheight htiles
  subst hwidth hheight htiles
  funext left previous current
  induction left generalizing previous current with
  | zero => rfl
  | succ left ih =>
      unfold riverWalk
      simp only [ih]
      rfl

theorem SameMap.roadWalk_eq (h : SameMap v w) : roadWalk v = roadWalk w := by
  obtain ⟨hwidth, hheight, htiles, -, -⟩ := h
  obtain ⟨config⟩ := v
  obtain ⟨config'⟩ := w
  cases config
  cases config'
  simp only at hwidth hheight htiles
  subst hwidth hheight htiles
  funext left previous current river entries
  induction left generalizing previous current river entries with
  | zero => rfl
  | succ left ih =>
      unfold roadWalk
      simp only [ih]
      rfl

/-- The scan results are functions of the map. -/
theorem SameMap.found_eq (h : SameMap v w) : v.riverFound = w.riverFound ∧
    v.roadFound = w.roadFound ∧ scanTiles v = scanTiles w := by
  have hriverWalk := h.riverWalk_eq
  have hroadWalk := h.roadWalk_eq
  obtain ⟨hwidth, hheight, htiles, hentities, -⟩ := h
  obtain ⟨config⟩ := v
  obtain ⟨config'⟩ := w
  cases config
  cases config'
  simp only at hwidth hheight htiles hentities
  subst hwidth hheight htiles hentities
  simp only [World.riverFound, World.roadFound, fdValidateRiver, fdValidateRoad, hriverWalk,
    hroadWalk]
  exact ⟨rfl, rfl, rfl⟩

/-- The validator reads neither the clock nor the cached digests nor the carve record. -/
theorem SameMap.report_eq (h : SameMap v w) (hriver : v.riverTileCount = w.riverTileCount)
    (hroad : v.roadTileCount = w.roadTileCount) (hland : v.landTileCount = w.landTileCount) :
    fdWorldValidateInternal v = fdWorldValidateInternal w := by
  have hriverWalk := h.riverWalk_eq
  have hroadWalk := h.roadWalk_eq
  obtain ⟨hwidth, hheight, htiles, hentities, hregion⟩ := h
  obtain ⟨config⟩ := v
  obtain ⟨config'⟩ := w
  cases config
  cases config'
  simp only at hwidth hheight htiles hentities hregion hriver hroad hland
  subst hwidth hheight htiles hentities hregion hriver hroad hland
  simp only [fdWorldValidateInternal, World.passedInvariants, World.hydrologyHolds,
    World.corridorHolds, World.settlementsHold, World.ownershipHolds, World.riverFound,
    World.roadFound, fdValidateRiver, fdValidateRoad, hriverWalk, hroadWalk]
  rfl

theorem SameMap.valid_of_valid (h : SameMap v w) (hriver : v.riverTileCount = w.riverTileCount)
    (hroad : v.roadTileCount = w.roadTileCount) (hland : v.landTileCount = w.landTileCount)
    (hvalid : v.Valid) : w.Valid := by
  rw [World.Valid, ← h.report_eq hriver hroad hland]
  exact hvalid

/-- The stored counts of a valid world are determined by its map. -/
theorem SameMap.counts_eq (h : SameMap v w) (hv : v.Invariants) (hw : w.Invariants) :
    v.riverTileCount = w.riverTileCount ∧ v.roadTileCount = w.roadTileCount ∧
      v.landTileCount = w.landTileCount := by
  obtain ⟨hriver, hroad, hscan⟩ := h.found_eq
  have hydrology : ∀ world : World, world.Invariants →
      world.riverTileCount.toNat = world.riverFound.1 ∧
        world.roadTileCount.toNat = world.roadFound.1 := by
    intro world hworld
    have h1 := hworld.hydrology
    have h2 := hworld.corridor
    simp only [World.hydrologyHolds, World.corridorHolds, Bool.and_eq_true, beq_iff_eq] at h1 h2
    exact ⟨h1.2, h2.2⟩
  obtain ⟨hv1, hv2⟩ := hydrology v hv
  obtain ⟨hw1, hw2⟩ := hydrology w hw
  refine ⟨UInt32.toNat_inj.mp ?_, UInt32.toNat_inj.mp ?_, UInt32.toNat_inj.mp ?_⟩
  · rw [hv1, hw1, hriver]
  · rw [hv2, hw2, hroad]
  · rw [hv.landCount, hw.landCount, hscan]

end congruence

end FrontierDirectorate
