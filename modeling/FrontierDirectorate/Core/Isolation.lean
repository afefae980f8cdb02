import Mathlib
import FrontierDirectorate.Core.Candidate
import FrontierDirectorate.Core.Invariants
import FrontierDirectorate.Lib.Related

/-!
# Attempts do not see each other

Two attempts with the same number and the same flag are run side by side in two
world buffers that agree on the size of the map and on the densities only. Every
stage adds what it writes to what the two worlds have in common.
-/
namespace FrontierDirectorate
open Checks

/-- Stages that gave up for the same reason. -/
def SameResult (left right : Halted) : Prop := left.result = right.result

/-- Attempts that were rejected alike. -/
def SameRejection (left right : Rejected) : Prop :=
  left.result = right.result ∧ left.reason = right.reason

/-- A change of the world that the stages over the map can neither see nor undo. -/
structure Unseen (g : World → World) : Prop where
  width : ∀ w, (g w).width = w.width
  height : ∀ w, (g w).height = w.height
  wetlandDensityPpm : ∀ w, (g w).config.wetlandDensityPpm = w.config.wetlandDensityPpm
  hillDensityPpm : ∀ w, (g w).config.hillDensityPpm = w.config.hillDensityPpm
  forestDensityPpm : ∀ w, (g w).config.forestDensityPpm = w.config.forestDensityPpm
  tiles : ∀ w, (g w).tiles = w.tiles
  landTileCount : ∀ w, (g w).landTileCount = w.landTileCount
  riverRaisedTileCount : ∀ w, (g w).riverRaisedTileCount = w.riverRaisedTileCount
  riverMinCarveCm : ∀ w, (g w).riverMinCarveCm = w.riverMinCarveCm
  putTiles : ∀ w tiles, g { w with tiles := tiles } = { g w with tiles := tiles }
  putLand : ∀ w count, g { w with landTileCount := count } = { g w with landTileCount := count }
  putRaised : ∀ w count,
    g { w with riverRaisedTileCount := count } = { g w with riverRaisedTileCount := count }
  putCarve : ∀ w carve,
    g { w with riverMinCarveCm := carve } = { g w with riverMinCarveCm := carve }

/-- The second run takes the same turn and ends in the changed world. -/
def Mirrors (g : World → World) : Except Halted World → Except Halted World → Prop :=
  Related SameResult fun a b => b = g a

theorem related_drawIn {v w : World} (draw : Except FdResult UInt32) :
    Related SameResult Eq (drawIn v draw) (drawIn w draw) := by
  cases draw <;> exact rfl

namespace Unseen

variable {g : World → World} {draws : Draws} {attempt : UInt64}

theorem tileCount (hg : Unseen g) (w : World) : (g w).tileCount = w.tileCount := by
  rw [World.tileCount, hg.tiles, World.tileCount]

theorem tile (hg : Unseen g) (w : World) (index : Nat) : (g w).tile index = w.tile index := by
  rw [World.tile, hg.tiles, World.tile]

theorem terrain (hg : Unseen g) (w : World) (index : Nat) :
    (g w).terrain index = w.terrain index := by
  rw [World.terrain, hg.tile, World.terrain]

theorem hasOverlay (hg : Unseen g) (w : World) (index : Nat) (overlay : UInt32) :
    (g w).hasOverlay index overlay = w.hasOverlay index overlay := by
  rw [World.hasOverlay, hg.tile, World.hasOverlay]

theorem neighbors (hg : Unseen g) (w : World) (index : Nat) :
    (g w).neighbors index = w.neighbors index := by
  rw [World.neighbors, hg.width, hg.height, World.neighbors]

theorem modifyTile (hg : Unseen g) (w : World) (index : Nat) (f : Tile → Tile) :
    g (w.modifyTile index f) = (g w).modifyTile index f := by
  rw [World.modifyTile, hg.putTiles, World.modifyTile, hg.tiles]

theorem baseWaterWidth (hg : Unseen g) (w : World) : (g w).baseWaterWidth = w.baseWaterWidth := by
  rw [World.baseWaterWidth, hg.width, World.baseWaterWidth]

theorem inlandX (hg : Unseen g) (w : World) (westWater : Bool) :
    (g w).inlandX westWater = w.inlandX westWater := by
  rw [World.inlandX, hg.width, World.inlandX]

theorem inlandY (hg : Unseen g) (w : World) : (g w).inlandY = w.inlandY := by
  rw [World.inlandY, hg.height, World.inlandY]

theorem harbourIndex (hg : Unseen g) (w : World) (plan : CandidatePlan) :
    (g w).harbourIndex plan = w.harbourIndex plan := by
  rw [World.harbourIndex, hg.width, hg.baseWaterWidth, World.harbourIndex]

theorem marketIndex (hg : Unseen g) (w : World) (plan : CandidatePlan) :
    (g w).marketIndex plan = w.marketIndex plan := by
  rw [World.marketIndex, hg.width, hg.inlandX, hg.inlandY, World.marketIndex]

/-! The coast. -/

theorem layCoastTile (hg : Unseen g) (westWater : Bool) (waterWidth y : Nat) (w : World)
    (x : Nat) : g (layCoastTile westWater waterWidth y w x) =
      FrontierDirectorate.layCoastTile westWater waterWidth y (g w) x := by
  unfold FrontierDirectorate.layCoastTile
  simp only [hg.width, hg.landTileCount]
  rw [hg.putLand, hg.modifyTile]

theorem rowWaterWidth (hg : Unseen g) (w : World) {plan : CandidatePlan} {fallback : Bool}
    {y : Nat} : Related SameResult Eq (rowWaterWidth draws w plan attempt fallback y)
      (FrontierDirectorate.rowWaterWidth draws (g w) plan attempt fallback y) := by
  unfold FrontierDirectorate.rowWaterWidth
  simp only [hg.baseWaterWidth, World.coastAmplitude, hg.width]
  split
  · exact rfl
  · split
    · exact rfl
    · refine Related.bind (related_drawIn _) fun a b hab => ?_
      rw [hab]
      exact rfl

theorem layCoastRow (hg : Unseen g) (w : World) {plan : CandidatePlan} {fallback : Bool}
    {y : Nat} : Mirrors g (layCoastRow draws plan attempt fallback w y)
      (FrontierDirectorate.layCoastRow draws plan attempt fallback (g w) y) := by
  refine Related.bind (hg.rowWaterWidth w) fun a b hab => ?_
  rw [← hab, hg.width]
  exact (List.foldl_hom g fun w x => (hg.layCoastTile plan.westWater a y w x).symm)

theorem layCoast (hg : Unseen g) {v w : World} {plan : CandidatePlan} {fallback : Bool}
    (hcleared : w.cleared = g v.cleared) : Mirrors g (layCoast draws plan attempt fallback v)
      (FrontierDirectorate.layCoast draws plan attempt fallback w) := by
  have hheight : w.height = v.height := by
    have h := hg.height v.cleared
    rw [← hcleared] at h
    exact h
  unfold FrontierDirectorate.layCoast
  rw [hheight]
  refine related_forEach (fun a b y hab => ?_) _ hcleared
  rw [hab]
  exact hg.layCoastRow a

/-! The elevation. -/

theorem drawLattice (hg : Unseen g) (w : World) {octave : Octave} :
    Related SameResult Eq (drawLattice draws w attempt octave)
      (FrontierDirectorate.drawLattice draws (g w) attempt octave) := by
  unfold FrontierDirectorate.drawLattice
  simp only [Octave.gridWidth, Octave.gridHeight, hg.width, hg.height]
  exact related_mapM (fun cell => related_drawIn _) _

theorem raiseLand (hg : Unseen g) (octave : Octave) (grid : List UInt32) (w : World) :
    g (raiseLand octave grid w) = FrontierDirectorate.raiseLand octave grid (g w) := by
  unfold FrontierDirectorate.raiseLand
  simp only [Octave.gridWidth, hg.width, hg.tiles]
  rw [hg.putTiles]

theorem waterLand (hg : Unseen g) (w : World) :
    g (waterLand w) = FrontierDirectorate.waterLand (g w) := by
  unfold FrontierDirectorate.waterLand
  rw [hg.putTiles, hg.tiles]

theorem elevationOver (hg : Unseen g) (w : World) : Mirrors g (elevationOver draws attempt w)
    (FrontierDirectorate.elevationOver draws attempt (g w)) := by
  have hoctave : ∀ (w : World) (octave : Octave), Mirrors g (octaveOver draws attempt w octave)
      (octaveOver draws attempt (g w) octave) := by
    intro w octave
    refine Related.map (hg.drawLattice w) fun grid grid' hgrid => ?_
    rw [← hgrid, hg.raiseLand]
  refine Related.map (R := fun a b => b = g a) ?_ fun a b hab => ?_
  · refine related_forEach (fun a b octave hab => ?_) octaves rfl
    rw [hab]
    exact hoctave a octave
  · rw [hab, hg.waterLand]

/-! The river. -/

theorem setRiverTile (hg : Unseen g) (w : World) (index elevation : Nat) :
    Mirrors g (fdSetRiverTile w index elevation) (fdSetRiverTile (g w) index elevation) := by
  unfold fdSetRiverTile
  simp only [hg.tile, hg.riverMinCarveCm]
  split
  · exact rfl
  · split
    · exact rfl
    · have hcarve := hg.putCarve (w.modifyTile index fun tile => { tile with
        overlays := tile.overlays ||| fdTileOverlayRiver
        terrain := fdTerrainGrassland
        elevationCm := Int32.ofNat elevation })
      simp only [hg.modifyTile] at hcarve
      exact (hcarve _).symm

theorem constructRiver (hg : Unseen g) (w : World) (westWater : Bool)
    (waterWidth outletY sourceY tieChoice : Nat) :
    Related SameResult (fun a b => b.1 = g a.1 ∧ b.2 = a.2)
      (fdConstructRiver w westWater waterWidth outletY sourceY tieChoice)
      (fdConstructRiver (g w) westWater waterWidth outletY sourceY tieChoice) := by
  unfold fdConstructRiver
  simp only [hg.width]
  refine Related.bind (hg.setRiverTile w _ _) fun a b hab => ?_
  rw [hab, ← hg.modifyTile]
  refine Related.bind (R := fun a b => b = g a) ?_ fun a b hab => ?_
  · refine related_forEach (fun a b cell hab => ?_) _ rfl
    rw [hab]
    exact hg.setRiverTile a _ _
  · rw [hab, ← hg.modifyTile]
    exact ⟨rfl, rfl⟩

/-! The biomes. -/

theorem wetlandEligible (hg : Unseen g) (w : World) (index : Nat) :
    fdWetlandEligible (g w) index = fdWetlandEligible w index := by
  simp only [fdWetlandEligible, hg.hasOverlay, hg.neighbors, hg.terrain]

theorem assignBiome (hg : Unseen g) (w : World) (index : Nat) :
    Mirrors g (assignBiome draws attempt w index)
      (FrontierDirectorate.assignBiome draws attempt (g w) index) := by
  unfold FrontierDirectorate.assignBiome
  simp only [hg.terrain, hg.hasOverlay, hg.wetlandEligible, biomeTerrain, hg.wetlandDensityPpm,
    hg.hillDensityPpm, hg.forestDensityPpm]
  split
  · exact rfl
  · refine Related.bind (related_drawIn _) fun a b hab => ?_
    rw [hab, ← hg.modifyTile]
    exact rfl

theorem assignBiomes (hg : Unseen g) (w : World) : Mirrors g (assignBiomes draws attempt w)
    (FrontierDirectorate.assignBiomes draws attempt (g w)) := by
  unfold FrontierDirectorate.assignBiomes
  rw [hg.tileCount]
  refine related_forEach (fun a b index hab => ?_) _ rfl
  rw [hab]
  exact hg.assignBiome a index

theorem setTerrain (hg : Unseen g) (w : World) (index : Nat) (terrain : UInt32) :
    g (w.setTerrain index terrain) = (g w).setTerrain index terrain := hg.modifyTile w index _

theorem patchRepresentatives (hg : Unseen g) (plan : CandidatePlan) (w : World) :
    g (patchRepresentatives plan w) = FrontierDirectorate.patchRepresentatives plan (g w) := by
  unfold FrontierDirectorate.patchRepresentatives
  simp only [hg.width, hg.baseWaterWidth, hg.inlandX, hg.inlandY, hg.setTerrain]

theorem settle (hg : Unseen g) (w : World) (index : Nat) (id : FdEntityId) :
    g (w.settle index id) = (g w).settle index id := hg.modifyTile w index _

/-! The road. -/

theorem roadCost (hg : Unseen g) (w : World) :
    fdRoadCost draws attempt (g w) = fdRoadCost draws attempt w := by
  funext index
  simp only [fdRoadCost, hg.terrain, hg.hasOverlay]

theorem traceRoad (hg : Unseen g) {previous : Nat → Nat} {start left : Nat} (w : World)
    (current count intersection : Nat) :
    Related SameResult (fun a b => b.1 = g a.1 ∧ b.2 = a.2)
      (traceRoad previous start left w current count intersection)
      (FrontierDirectorate.traceRoad previous start left (g w) current count intersection) := by
  induction left generalizing w current count intersection with
  | zero =>
      unfold FrontierDirectorate.traceRoad
      simp only [← hg.modifyTile, hg.hasOverlay]
      split
      · exact rfl
      · split
        · exact ⟨rfl, rfl⟩
        · split
          · exact rfl
          · exact rfl
  | succ left ih =>
      unfold FrontierDirectorate.traceRoad
      simp only [← hg.modifyTile, hg.hasOverlay]
      split
      · exact rfl
      · split
        · exact ⟨rfl, rfl⟩
        · split
          · exact rfl
          · exact ih _ _ _ _

theorem markCrossing (hg : Unseen g) (w : World) (intersection : Nat) :
    g (markCrossing w intersection) = FrontierDirectorate.markCrossing (g w) intersection := by
  unfold FrontierDirectorate.markCrossing
  split
  · exact hg.modifyTile w _ _
  · rfl

/-- The road also writes its length, which a later change of the world may keep. -/
theorem roadOver (hg : Unseen g) {k : World → World}
    (hput : ∀ w count, { g w with roadTileCount := count } =
      k { w with roadTileCount := count }) (w : World) (cost : Nat → Nat) (start goal : Nat) :
    Mirrors k (roadOver cost w start goal)
      (FrontierDirectorate.roadOver cost (g w) start goal) := by
  unfold FrontierDirectorate.roadOver
  rw [hg.width, hg.height, hg.tileCount]
  split
  · exact rfl
  · split
    · exact rfl
    · refine Related.bind (hg.traceRoad w goal 0 uint32Max) fun a b hab => ?_
      obtain ⟨a, count, intersection⟩ := a
      obtain ⟨b, count', intersection'⟩ := b
      obtain ⟨hb, hcounts⟩ := hab
      cases hcounts
      change b = g a at hb
      change _ = k _
      rw [hb, ← hg.markCrossing, hput]

end Unseen

/-! What the second world has in common with the first after each stage. -/

/-- The buffer `b` with the size, the densities and the map of `w`. -/
def World.withMap (b w : World) : World :=
  { b with
    config := { b.config with
      width := w.config.width
      height := w.config.height
      forestDensityPpm := w.config.forestDensityPpm
      hillDensityPpm := w.config.hillDensityPpm
      wetlandDensityPpm := w.config.wetlandDensityPpm }
    tiles := w.tiles
    landTileCount := w.landTileCount
    riverRaisedTileCount := w.riverRaisedTileCount
    riverMinCarveCm := w.riverMinCarveCm }

def World.withRiver (b w : World) : World :=
  { b.withMap w with riverTileCount := w.riverTileCount }

/-- The tile counts of the region are still those of the buffer. -/
def World.withPeople (b w : World) : World :=
  { b.withRiver w with
    entities := w.entities
    region := { w.region with
      riverTileCount := b.region.riverTileCount
      roadTileCount := b.region.roadTileCount } }

def World.withRoad (b w : World) : World :=
  { b.withPeople w with roadTileCount := w.roadTileCount }

theorem unseen_withMap (b : World) : Unseen b.withMap := by
  constructor <;> intros <;> rfl

theorem unseen_withRiver (b : World) : Unseen b.withRiver := by
  constructor <;> intros <;> rfl

theorem unseen_withPeople (b : World) : Unseen b.withPeople := by
  constructor <;> intros <;> rfl

section names

variable {draws : Draws} {attempt : UInt64} {b : World}

/-- Entities that differ in their names at most. -/
def SameButName (left right : Entity) : Prop := { left with name := [] } = { right with name := [] }

theorem related_assignName {left right : Entity} (h : SameButName left right) (domain : UInt32)
    (subject attempt : UInt64) (suffix : String) :
    Related (fun e e' : Entity × FdResult => e.2 = e'.2) Eq
      (fdAssignName draws left domain subject attempt suffix)
      (fdAssignName draws right domain subject attempt suffix) := by
  unfold fdAssignName
  refine Related.bind (related_forEach (R := Eq) (fun written written' part hw => ?_) _ rfl)
    fun written written' hw => ?_
  · rw [hw]
    cases draws.bounded domain subject attempt (UInt64.ofNat part) fdRngSiteNamingSyllable _ <;>
      exact rfl
  · rw [hw]
    have hfields := Entity.mk.inj h
    obtain ⟨hid, hkind, hx, hy, hregion, howner, -⟩ := hfields
    change Entity.mk _ _ _ _ _ _ _ = Entity.mk _ _ _ _ _ _ _
    rw [hid, hkind, hx, hy, hregion, howner]

theorem related_nameEntity {v w : World} {index : Fin 6}
    (h : SameButName (v.entity index) (w.entity index)) :
    Related SameResult (fun v' w' => ∃ entity,
        v' = { v with entities := v.entities.set index entity } ∧
        w' = { w with entities := w.entities.set index entity })
      (nameEntity draws attempt v index) (nameEntity draws attempt w index) := by
  have hnamed := @related_assignName draws _ _ h
    (if index.val < 4 then fdRngDomainNaming else fdRngDomainFactionInitialization)
    (UInt64.ofNat index.val + 1) attempt (suffixes.getD index.val "")
  unfold nameEntity
  simp only
  generalize fdAssignName draws (v.entity index) _ _ _ _ = left at hnamed ⊢
  generalize fdAssignName draws (w.entity index) _ _ _ _ = right at hnamed ⊢
  cases left with
  | error e =>
      obtain ⟨e', rfl, he⟩ := hnamed.error
      exact he
  | ok entity =>
      obtain ⟨entity', rfl, rfl⟩ := hnamed.ok
      exact ⟨entity, rfl, rfl⟩

/-- The two worlds while the names are drawn: those drawn already agree. -/
def NamedAlike (b : World) (done : List (Fin 6)) (v w : World) : Prop :=
  ∃ entities : List.Vector Entity 6, w = { b.withRiver v with entities := entities } ∧
    (∀ index, SameButName (v.entity index) (entities.get index)) ∧
    ∀ index ∈ done, entities.get index = v.entity index

theorem NamedAlike.step {done : List (Fin 6)} {v w : World} (h : NamedAlike b done v w)
    (index : Fin 6) : Related SameResult (NamedAlike b (done ++ [index]))
      (nameEntity draws attempt v index) (nameEntity draws attempt w index) := by
  obtain ⟨entities, rfl, hsame, hdone⟩ := h
  refine (related_nameEntity (hsame index)).mono ?_
  rintro v' w' ⟨entity, rfl, rfl⟩
  have hget : ∀ (old : List.Vector Entity 6) other, (old.set index entity).get other =
      if index = other then entity else old.get other := by
    intro old other
    exact List.Vector.get_set_eq_if _
  refine ⟨entities.set index entity, rfl, fun other => ?_, fun other hother => ?_⟩
  · rw [World.entity, hget, hget]
    split
    · exact rfl
    · exact hsame other
  · rw [World.entity, hget, hget]
    split
    · rfl
    · next hne =>
        rcases List.mem_append.mp hother with h | h
        · exact hdone other h
        · exact absurd (List.mem_singleton.mp h).symm hne

theorem namedAlike_all {done : List (Fin 6)} {v w : World} (h : NamedAlike b done v w)
    (indices : List (Fin 6)) : Related SameResult (NamedAlike b (done ++ indices))
      (forEach indices (nameEntity draws attempt) v) (forEach indices (nameEntity draws attempt) w) := by
  induction indices generalizing done v w with
  | nil =>
      rw [List.append_nil]
      exact h
  | cons index indices ih =>
      refine Related.bind (h.step index) fun v' w' h' => ?_
      have hrest := ih h'
      rwa [List.append_assoc] at hrest

theorem sameButName_blank (coastalX coastalY inlandX inlandY : Nat) (old old' : List.Vector Entity 6)
    (index : Fin 6) : SameButName ((blankEntities coastalX coastalY inlandX inlandY old).get index)
      ((blankEntities coastalX coastalY inlandX inlandY old').get index) := by
  fin_cases index <;> rfl

theorem related_initializeEntities (v : World) (coastalX coastalY inlandX inlandY outlet : Nat) :
    Related SameResult (fun a c => c = b.withPeople a)
      (fdInitializeEntities draws v coastalX coastalY inlandX inlandY outlet attempt)
      (fdInitializeEntities draws (b.withRiver v) coastalX coastalY inlandX inlandY outlet
        attempt) := by
  unfold fdInitializeEntities
  refine Related.bind (R := NamedAlike b ([] ++ List.finRange 6)) (namedAlike_all ?_ _)
    fun a c hnamed => ?_
  · refine ⟨_, rfl, fun index => ?_, fun index hindex => ?_⟩
    · exact sameButName_blank _ _ _ _ _ _ index
    · cases hindex
  · obtain ⟨entities, rfl, -, hall⟩ := hnamed
    have hentities : entities = a.entities :=
      List.Vector.ext fun index => hall index (List.mem_finRange index)
    rw [hentities]
    exact rfl

end names

section verdicts

variable {draws : Draws} {attempt : UInt64} {b v w : World}

/-- What an accepted attempt fills in. -/
structure World.SameGround (v w : World) : Prop where
  tiles : w.tiles = v.tiles
  entities : w.entities = v.entities
  region : w.region = v.region
  riverTileCount : w.riverTileCount = v.riverTileCount
  roadTileCount : w.roadTileCount = v.roadTileCount
  landTileCount : w.landTileCount = v.landTileCount
  riverRaisedTileCount : w.riverRaisedTileCount = v.riverRaisedTileCount
  riverMinCarveCm : w.riverMinCarveCm = v.riverMinCarveCm

/-- Rejected alike, or accepted with the same ground and report. -/
def VerdictsRelated : Except Rejected (World × ValidationReport) →
    Except Rejected (World × ValidationReport) → Prop :=
  Related SameRejection fun a b => a.1.SameGround b.1 ∧ b.2 = a.2

theorem sameRejection_because {left right : Halted} (reason : UInt32)
    (h : SameResult left right) : SameRejection (left.because reason) (right.because reason) :=
  ⟨h, rfl⟩

theorem related_populate (plan : CandidatePlan) (fallback : Bool) :
    Related SameRejection (fun a c => c = b.withPeople a)
      (populate draws plan attempt fallback v)
      (populate draws plan attempt fallback (b.withMap v)) := by
  have hmap := unseen_withMap b
  have hriver := unseen_withRiver b
  have hpeople := unseen_withPeople b
  unfold populate
  simp only [hmap.baseWaterWidth]
  refine Related.bind ((hmap.constructRiver v _ _ _ _ _).mapError
    fun _ _ => sameRejection_because _) fun a c hac => ?_
  obtain ⟨a, outlet, count⟩ := a
  obtain ⟨c, outlet', count'⟩ := c
  obtain ⟨hc, hcounts⟩ := hac
  cases hcounts
  change c = b.withMap a at hc
  rw [hc]
  refine Related.bind ((hriver.assignBiomes { a with riverTileCount := UInt32.ofNat count }).mapError
    fun _ _ => sameRejection_because _) fun a c hac => ?_
  have hpatched : (if fallback then patchRepresentatives plan c else c) =
      b.withRiver (if fallback then patchRepresentatives plan a else a) := by
    rw [hac]
    split
    · exact (hriver.patchRepresentatives plan a).symm
    · rfl
  rw [hpatched]
  simp only [hriver.inlandX, hriver.inlandY]
  refine Related.bind ((related_initializeEntities _ _ _ _ _ _).mapError
    fun _ _ => sameRejection_because _) fun a c hac => ?_
  rw [hac, hpeople.harbourIndex, ← hpeople.settle, hpeople.marketIndex]
  exact (hpeople.settle _ _ _).symm

/-- The world the verdict is about. -/
def World.counted (world : World) : World :=
  { world with region := { world.region with
    riverTileCount := world.riverTileCount
    roadTileCount := world.roadTileCount } }

theorem concludeCandidate_eq (world : World) : concludeCandidate world =
    if (fdWorldValidateInternal world.counted).failedInvariants ≠ 0 then
      .error ⟨world.counted, fdErrGenerationExhausted,
        rejectionReason (fdWorldValidateInternal world.counted)⟩
    else .ok (fdWorldComputeHash world.counted, fdWorldValidateInternal world.counted) := rfl

theorem related_concludeCandidate :
    VerdictsRelated (concludeCandidate v) (concludeCandidate (b.withRoad v)) := by
  have hmap : SameMap v.counted (b.withRoad v).counted := ⟨rfl, rfl, rfl, rfl, rfl⟩
  rw [concludeCandidate_eq, concludeCandidate_eq, ← hmap.report_eq rfl rfl rfl]
  split
  · exact ⟨rfl, rfl⟩
  · exact ⟨⟨rfl, rfl, rfl, rfl, rfl, rfl, rfl, rfl⟩, rfl⟩

/-- What a candidate reads of the world it is given. -/
structure World.SameSite (v w : World) : Prop where
  width : w.config.width = v.config.width
  height : w.config.height = v.config.height
  forestDensityPpm : w.config.forestDensityPpm = v.config.forestDensityPpm
  hillDensityPpm : w.config.hillDensityPpm = v.config.hillDensityPpm
  wetlandDensityPpm : w.config.wetlandDensityPpm = v.config.wetlandDensityPpm
  tileCount : w.tileCount = v.tileCount

theorem World.SameSite.cleared (h : v.SameSite w) : w.cleared = w.withMap v.cleared := by
  have hconfig : w.config = { w.config with
      width := v.config.width
      height := v.config.height
      forestDensityPpm := v.config.forestDensityPpm
      hillDensityPpm := v.config.hillDensityPpm
      wetlandDensityPpm := v.config.wetlandDensityPpm } := by
    rw [← h.width, ← h.height, ← h.forestDensityPpm, ← h.hillDensityPpm, ← h.wetlandDensityPpm]
  unfold World.cleared World.withMap
  rw [h.tileCount]
  congr 1

theorem related_layCandidate (h : v.SameSite w) (fallback : Bool) :
    Related SameResult (fun a c => c = (a.1, w.withMap a.2))
      (layCandidate draws attempt fallback v) (layCandidate draws attempt fallback w) := by
  have hplan : Related SameResult Eq (drawPlan draws v attempt) (drawPlan draws w attempt) := by
    have hheight : w.height = v.height := congrArg UInt32.toNat h.height
    unfold drawPlan
    rw [hheight]
    refine Related.bind (related_drawIn _) fun facing facing' hfacing => ?_
    refine Related.bind (related_drawIn _) fun offset offset' hoffset => ?_
    refine Related.bind (related_drawIn _) fun choice choice' hchoice => ?_
    refine Related.bind (related_drawIn _) fun tie tie' htie => ?_
    rw [hfacing, hoffset, hchoice, htie]
    exact rfl
  refine Related.bind hplan fun plan plan' hsame => ?_
  rw [← hsame]
  refine Related.bind ((unseen_withMap w).layCoast h.cleared) fun a c hac => ?_
  rw [hac]
  exact rfl

/-- What an earlier attempt left in the buffer changes neither the verdict of an attempt, nor its
reason, nor what it builds. -/
theorem candidate_isolated (h : v.SameSite w) (fallback : Bool) :
    VerdictsRelated (candidateOver draws v attempt fallback)
      (candidateOver draws w attempt fallback) := by
  unfold candidateOver
  refine Related.bind ((related_layCandidate h fallback).mapError
    fun _ _ => sameRejection_because _) fun a c hac => ?_
  rw [hac]
  refine Related.bind (((unseen_withMap w).elevationOver a.2).mapError
    fun _ _ => sameRejection_because _) fun u c hc => ?_
  rw [hc]
  refine Related.bind (related_populate a.1 fallback) fun u c hc => ?_
  have hpeople := unseen_withPeople w
  rw [hc, hpeople.roadCost, hpeople.harbourIndex, hpeople.marketIndex]
  refine Related.bind ((hpeople.roadOver (k := w.withRoad) (fun _ _ => rfl) u _ _ _).mapError
    fun _ _ => sameRejection_because _) fun u c hc => ?_
  rw [hc]
  exact related_concludeCandidate

end verdicts

end FrontierDirectorate
