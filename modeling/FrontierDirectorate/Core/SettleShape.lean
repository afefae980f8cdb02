import Mathlib
import FrontierDirectorate.Core.GroundShape
import FrontierDirectorate.Core.Isolation

/-!
# From the river to the settlements

Biomes, representatives, entities and settlements, whatever is drawn.
-/
namespace FrontierDirectorate
open Checks

section biomes

variable {draws : Draws} {attempt : UInt64} {plan : CandidatePlan} {waterWidth : Nat → Nat}
  {v w : World} {i : Nat}

/-- The ground that the biome draws give a tile. -/
def biomeGround (draws : Draws) (attempt : UInt64) (world : World) (i : Nat) : UInt32 :=
  if world.terrain i = fdTerrainWater ∨ world.hasOverlay i fdTileOverlayRiver then world.terrain i
  else
    match draws.bounded fdRngDomainBiomeAssignment (UInt64.ofNat i) attempt 0 fdRngSiteBiomeTile
        1000000 with
    | .error _ => world.terrain i
    | .ok value => biomeTerrain world.config (fdWetlandEligible world i) value

theorem biomeTerrain_cases (config : WorldConfig) (eligible : Bool) (value : UInt32) :
    WildTerrain (biomeTerrain config eligible value) ∧
      (biomeTerrain config eligible value = fdTerrainWetlands → eligible = true) := by
  have hhills : fdTerrainHills ≠ fdTerrainWetlands := by decide
  have hforest : fdTerrainForest ≠ fdTerrainWetlands := by decide
  have hgrass : fdTerrainGrassland ≠ fdTerrainWetlands := by decide
  unfold biomeTerrain
  split
  · next h => exact ⟨.inr (.inr (.inr rfl)), fun _ => h.1⟩
  · split
    · exact ⟨.inr (.inr (.inl rfl)), fun h => absurd h hhills⟩
    · split
      · exact ⟨.inr (.inl rfl), fun h => absurd h hforest⟩
      · exact ⟨.inl rfl, fun h => absurd h hgrass⟩

theorem wet_of_eligible (h : fdWetlandEligible w i = true) : w.Wet i := by
  unfold fdWetlandEligible at h
  rw [Bool.or_eq_true, List.any_eq_true] at h
  rcases h with h | ⟨near, hnear, h⟩
  · exact .inl h
  · rw [Bool.or_eq_true, beq_iff_eq] at h
    rcases h with h | h
    · exact .inr (.inr ⟨near, hnear, h⟩)
    · exact .inr (.inl ⟨near, hnear, h⟩)

/-- Where water and river are decides where wetlands can be. -/
theorem World.SameWater.wetlandEligible (h : v.SameWater w) (i : Nat) :
    fdWetlandEligible w i = fdWetlandEligible v i := by
  have hriver : ∀ j, w.hasOverlay j fdTileOverlayRiver = v.hasOverlay j fdTileOverlayRiver :=
    h.hasOverlay (by decide)
  have hnear : w.neighbors i = v.neighbors i := by
    rw [World.neighbors, World.width, World.height, h.config]
    rfl
  have hwater : ∀ j, (w.terrain j == fdTerrainWater) = (v.terrain j == fdTerrainWater) := fun j =>
    Bool.eq_iff_iff.mpr (by rw [beq_iff_eq, beq_iff_eq]; exact h.water j)
  unfold fdWetlandEligible
  simp only [hriver, hnear, hwater]

/-- The biomes of the first tiles. -/
structure BiomesLaid (draws : Draws) (attempt : UInt64) (plan : CandidatePlan)
    (waterWidth : Nat → Nat) (v : World) (count : Nat) (w : World) : Prop
    extends w.Wild plan waterWidth, v.SameWater w where
  laid : ∀ i < count, w.terrain i = biomeGround draws attempt v i
  bare : ∀ i, count ≤ i → w.terrain i = v.terrain i
  rest : w = { v with tiles := w.tiles }

theorem BiomesLaid.step (hdraws : draws.Answer)
    (h : BiomesLaid draws attempt plan waterWidth v i w) (hi : i < v.tileCount)
    (hsource : v.hasOverlay (plan.sourceTile v.width) fdTileOverlayRiver = true) :
    ∃ w', assignBiome draws attempt w i = .ok w' ∧
      BiomesLaid draws attempt plan waterWidth v (i + 1) w' := by
  have hterrain : w.terrain i = v.terrain i := h.bare i le_rfl
  have hriver : w.hasOverlay i fdTileOverlayRiver = v.hasOverlay i fdTileOverlayRiver :=
    h.toSameWater.hasOverlay (by decide) i
  have hwidth : w.width = v.width := congrArg (fun config => config.width.toNat) h.config
  unfold assignBiome
  by_cases hkept : v.terrain i = fdTerrainWater ∨ v.hasOverlay i fdTileOverlayRiver = true
  · rw [hterrain, hriver, if_pos hkept]
    refine ⟨w, rfl, ⟨h.toWild, h.toSameWater, fun j hj => ?_, fun j hj => h.bare j (by omega),
      h.rest⟩⟩
    rcases Nat.lt_succ_iff_lt_or_eq.mp hj with hlt | rfl
    · exact h.laid j hlt
    · rw [hterrain, biomeGround, if_pos hkept]
  · rw [hterrain, hriver, if_neg hkept]
    obtain ⟨value, hdraw, -⟩ := hdraws fdRngDomainBiomeAssignment (UInt64.ofNat i) attempt 0
      fdRngSiteBiomeTile 1000000 (by decide)
    obtain ⟨hwild, hwetlands⟩ := biomeTerrain_cases w.config (fdWetlandEligible w i) value
    have hnot : i ≠ plan.sourceTile w.width := by
      rintro rfl
      rw [hwidth] at hkept
      exact hkept (.inr hsource)
    obtain ⟨hnext, hsame⟩ := h.toWild.setTerrain _ hwild
      (hterrain ▸ fun hwater => hkept (.inl hwater)) hnot fun heq => wet_of_eligible (hwetlands heq)
    rw [hdraw]
    refine ⟨_, rfl, ⟨hnext, h.toSameWater.trans hsame, fun j hj => ?_, fun j hj => ?_, ?_⟩⟩
    · refine (World.terrain_setTerrain w i j _).trans ?_
      rcases Nat.lt_succ_iff_lt_or_eq.mp hj with hlt | rfl
      · rw [if_neg fun heq => hlt.ne' heq.1]
        exact h.laid j hlt
      · rw [if_pos ⟨rfl, h.tileCount.symm ▸ hi⟩, biomeGround, if_neg hkept, hdraw,
          h.toSameWater.wetlandEligible, h.config]
    · refine (World.terrain_setTerrain w i j _).trans ?_
      rw [if_neg fun heq => (Nat.lt_of_succ_le hj).ne heq.1]
      exact h.bare j (Nat.le_of_succ_le hj)
    · have hrest := h.rest
      generalize w.tiles = tiles at hrest
      subst hrest
      rfl

/-- The biomes of the whole map. -/
theorem assignBiomes_answer (hdraws : draws.Answer) (attempt : UInt64)
    (hwild : v.Wild plan waterWidth)
    (hsource : v.hasOverlay (plan.sourceTile v.width) fdTileOverlayRiver = true) :
    ∃ w, assignBiomes draws attempt v = .ok w ∧
      BiomesLaid draws attempt plan waterWidth v v.tileCount w := by
  obtain ⟨w, hw, hlaid⟩ := forEach_total (P := fun i w =>
      BiomesLaid draws attempt plan waterWidth v i w) (List.range v.tileCount)
    (assignBiome draws attempt) v
    ⟨hwild, .refl v, fun i hi => absurd hi (Nat.not_lt_zero i), fun _ _ => rfl, rfl⟩
    fun i hi w h => by
      rw [List.length_range] at hi
      rw [List.getElem_range]
      exact h.step hdraws hi hsource
  rw [List.length_range] at hlaid
  exact ⟨w, hw, hlaid⟩

end biomes

section representatives

variable {plan : CandidatePlan} {waterWidth : Nat → Nat} {w : World}

/-- Half way between the settlements, next to the river. -/
def CandidatePlan.middle (plan : CandidatePlan) (width : Nat) : Nat :=
  shore plan.westWater width ((fdCoastX plan.westWater width (width * 30 / 100) +
    (if plan.westWater then width - 3 else 2)) / 2)

/-- The three tiles that get a representative: their depths and rows. -/
theorem middle_bounds (htie : plan.tieChoice ≤ 1) {width : Nat} (hwidth : 32 ≤ width) :
    (fdCoastX plan.westWater width (width * 30 / 100) +
        (if plan.westWater then width - 3 else 2)) / 2 < width ∧
      width * 30 / 100 + width / 4 ≤ plan.middle width ∧ plan.middle width ≤ plan.bend width ∧
      plan.middle width + width / 4 ≤ width - 2 := by
  unfold CandidatePlan.middle CandidatePlan.bend CandidatePlan.bendX shore fdCoastX
  cases plan.westWater with
  | true =>
      simp only [if_true]
      omega
  | false =>
      simp only [Bool.false_eq_true, if_false]
      omega

/-- The representatives by depth and row. -/
theorem patchRepresentatives_eq (htie : plan.tieChoice ≤ 1) (hwidth : 32 ≤ w.width) :
    patchRepresentatives plan w =
      ((w.setTerrain (shoreCell plan.westWater w.width (plan.middle w.width) (plan.outletY + 1))
        fdTerrainWetlands).setTerrain
          (shoreCell plan.westWater w.width (w.width - 4) (w.height - 3)) fdTerrainForest).setTerrain
          (shoreCell plan.westWater w.width (w.width - 5) (w.height - 3)) fdTerrainGrassland := by
  obtain ⟨hmiddle, -⟩ := middle_bounds htie hwidth
  have hwet : plan.coastalY * w.width + (fdCoastX plan.westWater w.width w.baseWaterWidth +
      w.inlandX plan.westWater) / 2 =
        shoreCell plan.westWater w.width (plan.middle w.width) (plan.outletY + 1) := by
    rw [shoreCell, CandidatePlan.middle, shore_shore _ hmiddle]
    rfl
  have hforest : w.inlandY * w.width +
      (if plan.westWater then w.inlandX plan.westWater - 1 else w.inlandX plan.westWater + 1) =
        shoreCell plan.westWater w.width (w.width - 4) (w.height - 3) := by
    unfold shoreCell shore World.inlandX World.inlandY
    split <;> omega
  have hgrass : w.inlandY * w.width +
      (if plan.westWater then w.inlandX plan.westWater - 2 else w.inlandX plan.westWater + 2) =
        shoreCell plan.westWater w.width (w.width - 5) (w.height - 3) := by
    unfold shoreCell shore World.inlandX World.inlandY
    split <;> omega
  unfold patchRepresentatives
  simp only [hwet, hforest, hgrass]

/-- The tile of the representative wetlands touches the river. -/
theorem wet_middle (hbounds : w.boundsHold) (hfits : plan.Fits w.height)
    (h : w.Watered plan waterWidth) :
    w.Wet (shoreCell plan.westWater w.width (plan.middle w.width) (plan.outletY + 1)) := by
  obtain ⟨hlow, -, hlow', -, hsize⟩ := hbounds.sizes
  obtain ⟨-, hleast, hbend, hmost⟩ := middle_bounds hfits.tie hlow
  obtain ⟨-, -, hbend'⟩ := bend_bounds hfits.tie hlow
  have houtlet := hfits.outlet
  have hin : shoreCell plan.westWater w.width (plan.middle w.width) (plan.outletY + 1) <
      w.tileCount := hsize ▸ shoreCell_lt (by omega) (by omega)
  have hin' : shoreCell plan.westWater w.width (plan.middle w.width) plan.outletY <
      w.tileCount := hsize ▸ shoreCell_lt (by omega) (by omega)
  refine .inr (.inl ⟨_, (hbounds.mem_neighbors hin).mpr ⟨hin', ?_⟩, (h.river _ hin').mpr
    ⟨plan.middle w.width - w.width * 30 / 100, ?_, ?_⟩⟩)
  · rw [World.Adjacent, Adjacent, fdManhattan_shoreCell (by omega) (by omega),
      fdManhattan_eq_one_iff]
    omega
  · unfold CandidatePlan.riverLength
    omega
  · have hcell : plan.riverCell w.width (plan.middle w.width - w.width * 30 / 100) =
        (plan.middle w.width, plan.outletY) := by
      unfold CandidatePlan.riverCell
      dsimp only
      rw [if_pos (by omega), Prod.mk.injEq]
      omega
    rw [CandidatePlan.riverTile, hcell]

/-- Where the representatives stand. -/
structure World.Represented (world : World) (plan : CandidatePlan) : Prop where
  wetlands : world.terrain (shoreCell plan.westWater world.width (plan.middle world.width)
    (plan.outletY + 1)) = fdTerrainWetlands
  forest : world.terrain (shoreCell plan.westWater world.width (world.width - 4)
    (world.height - 3)) = fdTerrainForest
  grassland : world.terrain (shoreCell plan.westWater world.width (world.width - 5)
    (world.height - 3)) = fdTerrainGrassland

theorem source_ne (hfits : plan.Fits w.height) (hwidth : 32 ≤ w.width) {d y : Nat}
    (hd : d < w.width) (hne : d ≠ w.width - 2) :
    shoreCell plan.westWater w.width d y ≠ plan.sourceTile w.width := by
  intro heq
  rw [CandidatePlan.sourceTile, CandidatePlan.riverTile, riverCell_last hfits hwidth] at heq
  exact hne (shoreCell_inj hd (by omega) heq).1

theorem patchRepresentatives_wild (hbounds : w.boundsHold) (hfits : plan.Fits w.height)
    (hshore : ShoreLine plan w waterWidth) (h : w.Wild plan waterWidth) :
    (patchRepresentatives plan w).Wild plan waterWidth ∧
      w.SameWater (patchRepresentatives plan w) ∧ (patchRepresentatives plan w).Represented plan := by
  obtain ⟨hlow, -, hlow', -, hsize⟩ := hbounds.sizes
  obtain ⟨-, hleast, hbend, hmost⟩ := middle_bounds hfits.tie hlow
  have houtlet := hfits.outlet
  have hline := hshore.harbour
  have hmost' := hshore.most (w.height - 3)
  rw [patchRepresentatives_eq hfits.tie hlow]
  have hland : ∀ d y, d < w.width → y < w.height → waterWidth y ≤ d →
      w.terrain (shoreCell plan.westWater w.width d y) ≠ fdTerrainWater := fun d y hd hy hdepth =>
    fun hwater => absurd ((h.sea d y hd hy).mp hwater) (Nat.not_lt.mpr hdepth)
  have hwet := hland (plan.middle w.width) (plan.outletY + 1) (by omega) (by omega) (by omega)
  have hforest := hland (w.width - 4) (w.height - 3) (by omega) (by omega) (by omega)
  have hgrass := hland (w.width - 5) (w.height - 3) (by omega) (by omega) (by omega)
  obtain ⟨hfirst, hsame⟩ := h.setTerrain fdTerrainWetlands (.inr (.inr (.inr rfl))) hwet
    (source_ne hfits hlow (by omega) (by omega)) fun _ => wet_middle hbounds hfits h.toWatered
  have hforestWet : fdTerrainForest ≠ fdTerrainWetlands := by decide
  have hgrassWet : fdTerrainGrassland ≠ fdTerrainWetlands := by decide
  obtain ⟨hsecond, hsame'⟩ := hfirst.setTerrain fdTerrainForest (.inr (.inl rfl))
    (fun hwater => hforest ((hsame.water _).mp hwater))
    (source_ne hfits hlow (by omega) (by omega)) fun heq => absurd heq hforestWet
  obtain ⟨hthird, hsame''⟩ := hsecond.setTerrain fdTerrainGrassland (.inl rfl)
    (fun hwater => hgrass ((hsame.water _).mp ((hsame'.water _).mp hwater)))
    (source_ne hfits hlow (by omega) (by omega)) fun heq => absurd heq hgrassWet
  have hin : ∀ d y, d < w.width → y < w.height →
      shoreCell plan.westWater w.width d y < w.tileCount := fun d y hd hy =>
    hsize ▸ shoreCell_lt hd hy
  have hne : ∀ d y d' y', d < w.width → d' < w.width → d ≠ d' ∨ y ≠ y' →
      shoreCell plan.westWater w.width d y ≠ shoreCell plan.westWater w.width d' y' := by
    intro d y d' y' hd hd' hne heq
    obtain ⟨rfl, rfl⟩ := shoreCell_inj hd hd' heq
    exact hne.elim (fun h => h rfl) fun h => h rfl
  have hwetForest := hne (plan.middle w.width) (plan.outletY + 1) (w.width - 4) (w.height - 3)
    (by omega) (by omega) (by omega)
  have hwetGrass := hne (plan.middle w.width) (plan.outletY + 1) (w.width - 5) (w.height - 3)
    (by omega) (by omega) (by omega)
  have hforestGrass := hne (w.width - 4) (w.height - 3) (w.width - 5) (w.height - 3)
    (by omega) (by omega) (by omega)
  refine ⟨hthird, (hsame.trans hsame').trans hsame'', ?_, ?_, ?_⟩
  · exact (World.terrain_setTerrain_of_ne hwetGrass).trans
      ((World.terrain_setTerrain_of_ne hwetForest).trans
        (World.terrain_setTerrain_self (hin _ _ (by omega) (by omega))))
  · exact (World.terrain_setTerrain_of_ne hforestGrass).trans
      (World.terrain_setTerrain_self (hsame.tileCount.symm ▸ hin _ _ (by omega) (by omega)))
  · exact World.terrain_setTerrain_self
      ((hsame.trans hsame').tileCount.symm ▸ hin _ _ (by omega) (by omega))

end representatives

section people

variable {draws : Draws} {attempt : UInt64} {v w : World}

/-- The people of a map, but for their names. -/
structure World.Peopled (world : World) (coastalX coastalY inlandX inlandY outlet : Nat) :
    Prop where
  people : ∀ index, SameButName (world.entity index)
    ((blankEntities coastalX coastalY inlandX inlandY (List.Vector.replicate 6 Entity.zero)).get
      index)
  names : ∀ index, (world.entity index).name.length < fdMaxNameBytes
  region : { world.region with riverTileCount := 0, roadTileCount := 0 } =
    { id := fdMakeEntityId 1
      politicalOwnerId := fdMakeEntityId 4
      settlementIds := ⟨[fdMakeEntityId 2, fdMakeEntityId 3], rfl⟩
      foreignFactionIds := ⟨[fdMakeEntityId 5, fdMakeEntityId 6], rfl⟩
      riverOutletTileId := fdTileIdFromIndex outlet
      roadStartTileId := fdTileIdFromIndex (coastalY * world.width + coastalX)
      roadEndTileId := fdTileIdFromIndex (inlandY * world.width + inlandX)
      riverTileCount := 0
      roadTileCount := 0 }

theorem assignName_answer (hdraws : draws.Answer) (entity : Entity) (domain : UInt32)
    (subject attempt : UInt64) (suffix : String) :
    ∃ named, fdAssignName draws entity domain subject attempt suffix = .ok named ∧
      SameButName named entity := by
  have htotal : ∃ named, fdAssignName draws entity domain subject attempt suffix = .ok named := by
    refine exists_bind_eq_ok ?_ fun written => ⟨_, rfl⟩
    refine (forEach_total (P := fun _ _ => True) _ _ _ trivial fun i hi written _ => ?_).imp
      fun _ h => h.1
    obtain ⟨selected, hdraw, -⟩ := hdraws domain subject attempt
      (UInt64.ofNat (List.range 3)[i]) fdRngSiteNamingSyllable (UInt32.ofNat syllables.length)
      (by decide)
    simp only [hdraw]
    exact ⟨_, rfl, trivial⟩
  obtain ⟨named, hnamed⟩ := htotal
  refine ⟨named, hnamed, ?_⟩
  unfold fdAssignName at hnamed
  obtain ⟨written, -, hnamed⟩ := bind_eq_ok.mp hnamed
  cases hnamed
  rfl

theorem nameEntity_answer (hdraws : draws.Answer) (attempt : UInt64) (w : World) (index : Fin 6) :
    ∃ entity, nameEntity draws attempt w index =
        .ok { w with entities := w.entities.set index entity } ∧
      SameButName entity (w.entity index) := by
  obtain ⟨entity, hnamed, hsame⟩ := assignName_answer hdraws (w.entity index)
    (if index.val < 4 then fdRngDomainNaming else fdRngDomainFactionInitialization)
    (UInt64.ofNat index.val + 1) attempt (suffixes.getD index.val "")
  refine ⟨entity, ?_, hsame⟩
  unfold nameEntity
  simp only [hnamed]

/-- Everybody gets a name. -/
theorem initializeEntities_answer (hdraws : draws.Answer) (attempt : UInt64) (v : World)
    (coastalX coastalY inlandX inlandY outlet : Nat) :
    ∃ w, fdInitializeEntities draws v coastalX coastalY inlandX inlandY outlet attempt = .ok w ∧
      w = { v with entities := w.entities, region := w.region } ∧
      w.Peopled coastalX coastalY inlandX inlandY outlet := by
  obtain ⟨u, hu, ⟨entities, rfl, hsame⟩⟩ := forEach_total
    (P := fun _ (w : World) => ∃ entities : List.Vector Entity 6,
      w = { v with entities := entities } ∧ ∀ index, SameButName (entities.get index)
        ((blankEntities coastalX coastalY inlandX inlandY v.entities).get index))
    (List.finRange 6) (nameEntity draws attempt)
    { v with entities := blankEntities coastalX coastalY inlandX inlandY v.entities }
    ⟨blankEntities coastalX coastalY inlandX inlandY v.entities, rfl, fun _ => rfl⟩
    fun i hi w hw => by
      obtain ⟨entities, rfl, hsame⟩ := hw
      obtain ⟨entity, hnamed, hentity⟩ := nameEntity_answer hdraws attempt
        { v with entities := entities } (List.finRange 6)[i]
      refine ⟨_, hnamed, _, rfl, fun index => ?_⟩
      rw [List.Vector.get_set_eq_if]
      split
      · next heq => exact heq ▸ hentity.trans (hsame _)
      · exact hsame index
  have hpeople : ∀ index, SameButName (entities.get index)
      ((blankEntities coastalX coastalY inlandX inlandY (List.Vector.replicate 6 Entity.zero)).get
        index) := fun index => (hsame index).trans (sameButName_blank _ _ _ _ _ _ index)
  have hid : ∀ index : Fin 6,
      (entities.get index).id = fdMakeEntityId (UInt32.ofNat index.val + 1) := by
    intro index
    refine (congrArg Entity.id (hpeople index)).trans ?_
    fin_cases index <;> rfl
  have hdone : ∃ w, fdInitializeEntities draws v coastalX coastalY inlandX inlandY outlet attempt =
      .ok w ∧ w.entities = entities ∧ w = { v with entities := entities, region := w.region } ∧
      w.region = { v.region with
        id := (entities.get 0).id
        politicalOwnerId := (entities.get 3).id
        settlementIds := ⟨[(entities.get 1).id, (entities.get 2).id], rfl⟩
        foreignFactionIds := ⟨[(entities.get 4).id, (entities.get 5).id], rfl⟩
        riverOutletTileId := fdTileIdFromIndex outlet
        roadStartTileId := fdTileIdFromIndex (coastalY * v.width + coastalX)
        roadEndTileId := fdTileIdFromIndex (inlandY * v.width + inlandX) } := by
    unfold fdInitializeEntities
    rw [hu, ok_bind]
    exact ⟨_, rfl, rfl, rfl, rfl⟩
  obtain ⟨w, hw, hentities, hrest, hregion⟩ := hdone
  refine ⟨w, hw, hentities ▸ hrest, ?_, fun index => ?_, ?_⟩
  · intro index
    rw [World.entity, hentities]
    exact hpeople index
  · exact (fdU01NameValid_iff.mp (initializeEntities_names hw index)).2.1
  · have hwidth : w.width = v.width := by
      rw [hrest]
      rfl
    rw [hregion, hwidth]
    simp only [hid]
    rfl

end people

section settlements

variable {plan : CandidatePlan} {waterWidth : Nat → Nat} {v w : World}

/-- The map before its road. -/
structure World.Settled (world : World) (plan : CandidatePlan) (waterWidth : Nat → Nat) : Prop
    extends world.Watered plan waterWidth where
  free : world.RoadFree
  settled : ∀ i < world.tileCount, world.terrain i = fdTerrainSettlement ↔
    i = world.harbourIndex plan ∨ i = world.marketIndex plan
  ids : ∀ i < world.tileCount, (world.tile i).settlementId =
    if i = world.harbourIndex plan then fdMakeEntityId 2
    else if i = world.marketIndex plan then fdMakeEntityId 3 else 0
  peopled : world.Peopled (fdCoastX plan.westWater world.width world.baseWaterWidth)
    plan.coastalY (world.inlandX plan.westWater) world.inlandY (plan.riverTile world.width 0)
  riverTileCount : world.riverTileCount = UInt32.ofNat (plan.riverLength world.width)

theorem harbourIndex_eq (hwidth : 32 ≤ w.width) : w.harbourIndex plan =
    shoreCell plan.westWater w.width (w.width * 30 / 100) (plan.outletY + 1) := by
  rw [shoreCell, ← fdCoastX_eq (by omega)]
  rfl

theorem marketIndex_eq (hwidth : 32 ≤ w.width) : w.marketIndex plan =
    shoreCell plan.westWater w.width (w.width - 3) (w.height - 3) := by
  unfold World.marketIndex World.inlandX World.inlandY shoreCell shore
  split <;> omega

/-- Other fields of a wild map. -/
theorem World.Wild.of_tiles (h : v.Wild plan waterWidth) (hsurvey : v.SameSurvey w)
    (htiles : w.tiles = v.tiles) : w.Wild plan waterWidth ∧ v.SameWater w := by
  have htile : ∀ i, w.tile i = v.tile i := fun i => by rw [World.tile, World.tile, htiles]
  have hterrain : ∀ i, w.terrain i = v.terrain i := fun i => congrArg Tile.terrain (htile i)
  have hsame : v.SameWater w :=
    ⟨hsurvey, fun i => by rw [htile], fun i => by rw [htile], fun i => by rw [htile],
      fun i => by rw [hterrain]⟩
  refine ⟨⟨h.toWatered.transfer hsame (fun i hi => ?_) (hterrain _ ▸ h.source), fun i hi => ?_,
    fun i hi => ?_⟩, hsame⟩
  · rw [World.KnownTerrain, htile, hterrain]
    exact ⟨(h.rules i hi).known, (h.rules i hi).wetlands⟩
  · rw [htile]
    exact h.free i (hsurvey.tileCount ▸ hi)
  · rw [hterrain, htile]
    exact h.unsettled i (hsurvey.tileCount ▸ hi)

theorem World.tile_settle (w : World) (i j : Nat) (id : FdEntityId) :
    (w.settle i id).tile j = if i = j ∧ j < w.tileCount then
      { w.tile j with terrain := fdTerrainSettlement, settlementId := id } else w.tile j :=
  World.tile_modifyTile w i j _

/-- The tiles of a map with two settlements. -/
theorem World.tile_settle_settle {i j : Nat} (hi : i < w.tileCount) (hj : j < w.tileCount)
    (hapart : i ≠ j) (id id' : FdEntityId) (k : Nat) : ((w.settle i id).settle j id').tile k =
      if k = i then { w.tile k with terrain := fdTerrainSettlement, settlementId := id }
      else if k = j then { w.tile k with terrain := fdTerrainSettlement, settlementId := id' }
      else w.tile k := by
  have hj' : j < (w.settle i id).tileCount := by
    rw [World.settle, World.tileCount_modifyTile]
    exact hj
  rw [World.tile_settle, World.tile_settle]
  by_cases hsecond : k = j
  · have hfirst : i ≠ k := hsecond.symm ▸ hapart
    rw [if_pos ⟨hsecond.symm, hsecond ▸ hj'⟩, if_neg fun heq => hfirst heq.1, if_neg hfirst.symm,
      if_pos hsecond]
  · rw [if_neg fun heq => hsecond heq.1.symm]
    by_cases hfirst : k = i
    · rw [if_pos ⟨hfirst.symm, hfirst ▸ hi⟩, if_pos hfirst]
    · rw [if_neg fun heq => hfirst heq.1.symm, if_neg hfirst, if_neg hsecond]

theorem World.RoadFree.settle (h : w.RoadFree) (i : Nat) (id : FdEntityId) :
    (w.settle i id).RoadFree := h.modifyTile i fun _ => rfl

/-- The two settlements are on dry land, away from the source and from each other. -/
theorem settlements_apart (hbounds : w.boundsHold) (hfits : plan.Fits w.height)
    (hshore : ShoreLine plan w waterWidth) (h : w.Watered plan waterWidth) :
    w.harbourIndex plan < w.tileCount ∧ w.marketIndex plan < w.tileCount ∧
      w.harbourIndex plan ≠ w.marketIndex plan ∧
      w.terrain (w.harbourIndex plan) ≠ fdTerrainWater ∧
      w.terrain (w.marketIndex plan) ≠ fdTerrainWater ∧
      w.harbourIndex plan ≠ plan.sourceTile w.width ∧
      w.marketIndex plan ≠ plan.sourceTile w.width := by
  obtain ⟨hlow, -, hlow', -, hsize⟩ := hbounds.sizes
  have houtlet := hfits.outlet
  have hline := hshore.harbour
  have hmost := hshore.most (w.height - 3)
  rw [harbourIndex_eq hlow, marketIndex_eq hlow, hsize]
  refine ⟨shoreCell_lt (by omega) (by omega), shoreCell_lt (by omega) (by omega), fun heq => ?_,
    fun hwater => ?_, fun hwater => ?_, source_ne hfits hlow (by omega) (by omega),
    source_ne hfits hlow (by omega) (by omega)⟩
  · have hrow := (shoreCell_inj (by omega) (by omega) heq).1
    omega
  · have hdepth := (h.sea _ _ (by omega) (by omega)).mp hwater
    omega
  · have hdepth := (h.sea _ _ (by omega) (by omega)).mp hwater
    omega

/-- The settlements are built. -/
theorem settled_of_wild (hbounds : v.boundsHold) (hfits : plan.Fits v.height)
    (hshore : ShoreLine plan v waterWidth) (h : v.Wild plan waterWidth)
    (hpeopled : v.Peopled (fdCoastX plan.westWater v.width v.baseWaterWidth)
      plan.coastalY (v.inlandX plan.westWater) v.inlandY (plan.riverTile v.width 0))
    (hriver : v.riverTileCount = UInt32.ofNat (plan.riverLength v.width))
    (hw : w = (v.settle (v.harbourIndex plan) (v.entity 1).id).settle (v.marketIndex plan)
      (v.entity 2).id) :
    w.Settled plan waterWidth ∧ v.SameWater w ∧
      ∀ i, i ≠ v.harbourIndex plan → i ≠ v.marketIndex plan → w.terrain i = v.terrain i := by
  obtain ⟨hharbour, hmarket, hapart, hland, hland', hsource, hsource'⟩ :=
    settlements_apart hbounds hfits hshore h.toWatered
  have hid : (v.entity 1).id = fdMakeEntityId 2 := congrArg Entity.id (hpeopled.people 1)
  have hid' : (v.entity 2).id = fdMakeEntityId 3 := congrArg Entity.id (hpeopled.people 2)
  rw [hid, hid'] at hw
  have hsettlement : fdTerrainSettlement ≠ fdTerrainWater := by decide
  have hfirst : v.SameWater (v.settle (v.harbourIndex plan) (fdMakeEntityId 2)) :=
    sameWater_modifyTile _ _ rfl hland hsettlement
  have hsecond : (v.settle (v.harbourIndex plan) (fdMakeEntityId 2)).SameWater w := by
    rw [hw]
    exact sameWater_modifyTile _ _ rfl (fun hwater => hland' ((hfirst.water _).mp hwater))
      hsettlement
  have hsame := hfirst.trans hsecond
  have htile : ∀ i, w.tile i =
      if i = v.harbourIndex plan then
        { v.tile i with terrain := fdTerrainSettlement, settlementId := fdMakeEntityId 2 }
      else if i = v.marketIndex plan then
        { v.tile i with terrain := fdTerrainSettlement, settlementId := fdMakeEntityId 3 }
      else v.tile i := by
    intro i
    rw [hw]
    exact World.tile_settle_settle hharbour hmarket hapart _ _ i
  have hwild : ∀ i, i ≠ v.harbourIndex plan → i ≠ v.marketIndex plan →
      w.tile i = v.tile i := by
    intro i hharb hmark
    rw [htile i, if_neg hharb, if_neg hmark]
  have hterrain : ∀ i, i = v.harbourIndex plan ∨ i = v.marketIndex plan →
      w.terrain i = fdTerrainSettlement := by
    rintro i (hharb | hmark)
    · rw [World.terrain, htile i, if_pos hharb]
    · rw [World.terrain, htile i, if_pos hmark]
      split <;> rfl
  have hwatered : w.Watered plan waterWidth := by
    refine h.toWatered.transfer hsame (fun i hi => ?_) ?_
    · by_cases hplace : i = v.harbourIndex plan ∨ i = v.marketIndex plan
      · have hknown : fdTerrainWater ≤ fdTerrainSettlement ∧
            fdTerrainSettlement ≤ fdTerrainSettlement := by decide
        have hdry : fdTerrainSettlement ≠ fdTerrainWetlands := by decide
        have hbuilt := hterrain i hplace
        exact ⟨⟨hknown.1.trans_eq hbuilt.symm, hbuilt.trans_le hknown.2⟩,
          fun hwetlands => absurd (hbuilt.symm.trans hwetlands) hdry⟩
      · rw [not_or] at hplace
        have hkept := hwild i hplace.1 hplace.2
        rw [World.KnownTerrain, World.terrain, hkept]
        exact ⟨(h.rules i hi).known, (h.rules i hi).wetlands⟩
    · rw [World.terrain, hwild _ hsource.symm hsource'.symm]
      exact h.source
  subst hw
  refine ⟨⟨hwatered, ?_, fun i hi => ?_, fun i hi => ?_,
    ⟨hpeopled.people, hpeopled.names, hpeopled.region⟩, hriver⟩, hsame,
    fun i hharb hmark => congrArg Tile.terrain (hwild i hharb hmark)⟩
  · exact (h.free.settle _ _).settle _ _
  · rw [hsame.tileCount] at hi
    refine ⟨fun hsettled => ?_, hterrain i⟩
    by_contra hplace
    rw [not_or] at hplace
    rw [World.terrain, hwild i hplace.1 hplace.2] at hsettled
    exact (h.unsettled i hi).1 hsettled
  · rw [hsame.tileCount] at hi
    rw [htile i]
    change _ = if i = v.harbourIndex plan then _ else if i = v.marketIndex plan then _ else _
    split
    · rfl
    · split
      · rfl
      · exact (h.unsettled i hi).2

end settlements

section populate

variable {draws : Draws} {attempt : UInt64} {fallback : Bool} {plan : CandidatePlan}
  {waterWidth : Nat → Nat} {v w : World}

theorem World.SameSurvey.sizes (h : v.SameSurvey w) : w.width = v.width ∧ w.height = v.height :=
  ⟨congrArg (fun config => config.width.toNat) h.config,
    congrArg (fun config => config.height.toNat) h.config⟩

theorem World.SameSurvey.boundsHold (h : v.SameSurvey w) (hv : v.boundsHold) : w.boundsHold := by
  unfold World.boundsHold World.width World.height at hv ⊢
  rw [h.config, h.tileCount]
  exact hv

theorem World.SameSurvey.places (h : v.SameSurvey w) (plan : CandidatePlan) :
    w.harbourIndex plan = v.harbourIndex plan ∧ w.marketIndex plan = v.marketIndex plan := by
  unfold World.harbourIndex World.marketIndex World.baseWaterWidth World.inlandX World.inlandY
  rw [h.sizes.1, h.sizes.2]
  exact ⟨rfl, rfl⟩

theorem ShoreLine.congr (h : ShoreLine plan v waterWidth) (hwidth : w.width = v.width) :
    ShoreLine plan w waterWidth := by
  constructor
  · rw [hwidth]
    exact h.outlet
  · rw [hwidth]
    exact h.harbour
  · rw [hwidth]
    exact h.least
  · rw [hwidth]
    exact h.most

/-- The ground before anybody settles. -/
structure Grounded (draws : Draws) (attempt : UInt64) (fallback : Bool) (plan : CandidatePlan)
    (waterWidth : Nat → Nat) (v u w : World) : Prop
    extends w.Wild plan waterWidth, v.SameSurvey w where
  biomes : ∃ b, BiomesLaid draws attempt plan waterWidth u u.tileCount b ∧
    w = if fallback then patchRepresentatives plan b else b
  before : u.Wild plan waterWidth
  surveyed : v.SameSurvey u
  bed : ∀ j, j + 1 < plan.riverLength u.width →
    u.terrain (plan.riverTile u.width j) = fdTerrainGrassland
  represented : fallback = true → w.Represented plan
  riverTileCount : w.riverTileCount = UInt32.ofNat (plan.riverLength w.width)

/-- The river and the biomes, with the representatives of the fallback. -/
theorem grounded_answer (hdraws : draws.Answer) (attempt : UInt64) (fallback : Bool)
    (hbounds : v.boundsHold) (hfits : plan.Fits v.height) (hshore : ShoreLine plan v waterWidth)
    (hmap : LandMap plan.westWater waterWidth v) : ∃ u b w,
      (fdConstructRiver v plan.westWater v.baseWaterWidth plan.outletY plan.sourceY
        plan.tieChoice) = .ok (u, plan.riverTile v.width 0, plan.riverLength v.width) ∧
      assignBiomes draws attempt
        { u with riverTileCount := UInt32.ofNat (plan.riverLength v.width) } = .ok b ∧
      w = (if fallback then patchRepresentatives plan b else b) ∧
      Grounded draws attempt fallback plan waterWidth v
        { u with riverTileCount := UInt32.ofNat (plan.riverLength v.width) } w := by
  obtain ⟨hlow, -, hlow', -, hsize⟩ := hbounds.sizes
  obtain ⟨r, hlaid, hriver⟩ := constructRiver_ok hbounds hfits hshore hmap
  generalize hu : r.setTerrain (plan.sourceTile v.width) fdTerrainHills = u at hriver
  obtain ⟨hwild, hsurvey⟩ := wild_of_river hbounds hfits hshore hmap hlaid hu.symm
  obtain ⟨hwild', hwater⟩ := hwild.of_tiles
    (w := { u with riverTileCount := UInt32.ofNat (plan.riverLength v.width) })
    ⟨rfl, rfl, rfl, rfl⟩ rfl
  generalize hu' : { u with riverTileCount := UInt32.ofNat (plan.riverLength v.width) } = u' at *
  have hsurvey' : v.SameSurvey u' := hsurvey.trans hwater.toSameSurvey
  obtain ⟨hwidth, hheight⟩ := hsurvey'.sizes
  have hcount : u'.riverTileCount = UInt32.ofNat (plan.riverLength v.width) := hu' ▸ rfl
  have hsource : u'.hasOverlay (plan.sourceTile u'.width) fdTileOverlayRiver = true := by
    have hlast : plan.riverLength u'.width - 1 < plan.riverLength u'.width :=
      Nat.sub_lt (Nat.succ_pos _) Nat.one_pos
    refine (hwild'.river _ ?_).mpr ⟨_, hlast, rfl⟩
    rw [hsurvey'.tileCount, hsize, ← hwidth, ← hheight]
    exact riverTile_lt (hheight.symm ▸ hfits) (hwidth.symm ▸ hlow) (hheight.symm ▸ hlow') hlast
  obtain ⟨b, hb, hbiomes⟩ := assignBiomes_answer hdraws attempt hwild' hsource
  have hsurveyB : v.SameSurvey b := hsurvey'.trans hbiomes.toSameSurvey
  obtain ⟨hwidthB, hheightB⟩ := hsurveyB.sizes
  have hcountB : b.riverTileCount = UInt32.ofNat (plan.riverLength v.width) := by
    rw [hbiomes.rest]
    exact hcount
  obtain ⟨hpatched, hsamePatched, hrepresented⟩ := patchRepresentatives_wild
    (hsurveyB.boundsHold hbounds) (hheightB.symm ▸ hfits) (hshore.congr hwidthB) hbiomes.toWild
  have hbed : ∀ j, j + 1 < plan.riverLength u'.width →
      u'.terrain (plan.riverTile u'.width j) = fdTerrainGrassland := by
    intro j hj
    rw [hwidth] at hj ⊢
    have hlast : plan.riverLength v.width - 1 < plan.riverLength v.width :=
      Nat.sub_lt (Nat.succ_pos _) Nat.one_pos
    have hne : plan.riverTile v.width j ≠ plan.sourceTile v.width := fun heq =>
      absurd (riverTile_inj hfits hlow hlow' (Nat.lt_of_succ_lt hj) hlast heq) (by omega)
    have hkept : u'.terrain (plan.riverTile v.width j) = u.terrain (plan.riverTile v.width j) := by
      rw [← hu']
      rfl
    rw [hkept, ← hu, World.terrain_setTerrain_of_ne hne, World.terrain,
      hlaid.river j (Nat.lt_of_succ_lt hj)]
  have hnumber : ∀ {w : World}, v.SameSurvey w →
      UInt32.ofNat (plan.riverLength v.width) = UInt32.ofNat (plan.riverLength w.width) :=
    fun h => by rw [h.sizes.1]
  subst hu'
  refine ⟨u, b, _, hriver, hb, rfl, ?_⟩
  cases fallback with
  | true =>
      have hsurveyP := hsurveyB.trans hsamePatched.toSameSurvey
      exact ⟨hpatched, hsurveyP, ⟨b, hbiomes, rfl⟩, hwild', hsurvey', hbed, fun _ => hrepresented,
        hcountB.trans (hnumber hsurveyP)⟩
  | false =>
      exact ⟨hbiomes.toWild, hsurveyB, ⟨b, hbiomes, rfl⟩, hwild', hsurvey', hbed,
          fun h => absurd h (by decide),
        hcountB.trans (hnumber hsurveyB)⟩

/-- The representatives are not built over. -/
theorem World.Represented.settled (h : v.Represented plan) (hbounds : v.boundsHold)
    (hfits : plan.Fits v.height) (hsame : v.SameSurvey w)
    (hkept : ∀ i, i ≠ v.harbourIndex plan → i ≠ v.marketIndex plan → w.terrain i = v.terrain i) :
    w.Represented plan := by
  obtain ⟨hlow, -, hlow', -, hsize⟩ := hbounds.sizes
  obtain ⟨hwidth, hheight⟩ := hsame.sizes
  obtain ⟨-, hleast, -, hmost⟩ := middle_bounds hfits.tie hlow
  have houtlet := hfits.outlet
  have hfree : ∀ d y, d < v.width → d ≠ v.width * 30 / 100 ∨ y ≠ plan.outletY + 1 →
      d ≠ v.width - 3 ∨ y ≠ v.height - 3 →
      w.terrain (shoreCell plan.westWater v.width d y) =
        v.terrain (shoreCell plan.westWater v.width d y) := by
    intro d y hd hharbour hmarket
    refine hkept _ (fun heq => ?_) fun heq => ?_
    · rw [harbourIndex_eq hlow] at heq
      obtain ⟨rfl, rfl⟩ := shoreCell_inj hd (by omega) heq
      exact hharbour.elim (fun h => h rfl) fun h => h rfl
    · rw [marketIndex_eq hlow] at heq
      obtain ⟨rfl, rfl⟩ := shoreCell_inj hd (by omega) heq
      exact hmarket.elim (fun h => h rfl) fun h => h rfl
  constructor
  · rw [hwidth]
    exact (hfree _ _ (by omega) (by omega) (by omega)).trans h.wetlands
  · rw [hwidth, hheight]
    exact (hfree _ _ (by omega) (by omega) (by omega)).trans h.forest
  · rw [hwidth, hheight]
    exact (hfree _ _ (by omega) (by omega) (by omega)).trans h.grassland

/-- From the raised land to the settlements, whatever is drawn. -/
theorem populate_answer (hdraws : draws.Answer) (attempt : UInt64) (fallback : Bool)
    (hbounds : v.boundsHold) (hfits : plan.Fits v.height) (hshore : ShoreLine plan v waterWidth)
    (hmap : LandMap plan.westWater waterWidth v) : ∃ u g w,
      populate draws plan attempt fallback v = .ok w ∧
      Grounded draws attempt fallback plan waterWidth v u g ∧ w.Settled plan waterWidth ∧
      v.SameSurvey w ∧ (fallback = true → w.Represented plan) ∧
      ∀ i, i ≠ v.harbourIndex plan → i ≠ v.marketIndex plan → w.terrain i = g.terrain i := by
  obtain ⟨u, b, g, hriver, hbiomes, hg, hground⟩ :=
    grounded_answer hdraws attempt fallback hbounds hfits hshore hmap
  obtain ⟨hwidth, hheight⟩ := hground.toSameSurvey.sizes
  obtain ⟨e, he, hrest, hpeopled⟩ := initializeEntities_answer hdraws attempt g
    (fdCoastX plan.westWater v.width v.baseWaterWidth) plan.coastalY (g.inlandX plan.westWater)
    g.inlandY (plan.riverTile v.width 0)
  have htiles : e.tiles = g.tiles := by rw [hrest]
  have hsurvey : g.SameSurvey e := by
    rw [hrest]
    exact ⟨rfl, rfl, rfl, rfl⟩
  have hcount : e.riverTileCount = g.riverTileCount := by rw [hrest]
  obtain ⟨hwidth', hheight'⟩ := hsurvey.sizes
  obtain ⟨hwild, hwater⟩ := hground.toWild.of_tiles hsurvey htiles
  have hall := hground.toSameSurvey.trans hsurvey
  have hpeople : e.Peopled (fdCoastX plan.westWater e.width e.baseWaterWidth) plan.coastalY
      (e.inlandX plan.westWater) e.inlandY (plan.riverTile e.width 0) := by
    unfold World.baseWaterWidth World.inlandX World.inlandY at hpeopled ⊢
    rw [hwidth', hheight', hwidth]
    rw [hwidth] at hpeopled
    exact hpeopled
  obtain ⟨hsettled, hlast, hkept⟩ := settled_of_wild (hall.boundsHold hbounds)
    (hall.sizes.2.symm ▸ hfits) (hshore.congr hall.sizes.1) hwild hpeople
    (by rw [hcount, hground.riverTileCount, hwidth']) rfl
  have hterrain : ∀ i, e.terrain i = g.terrain i := fun i => by
    rw [World.terrain, World.tile, htiles]
    rfl
  have hfinal : ∀ {i}, i ≠ v.harbourIndex plan → i ≠ v.marketIndex plan → _ :=
    fun {i} hharbour hmarket => (hkept i ((hall.places plan).1 ▸ hharbour)
      ((hall.places plan).2 ▸ hmarket)).trans (hterrain i)
  refine ⟨_, g, _, ?_, hground, hsettled, hall.trans hlast.toSameSurvey, fun hfallback => ?_,
    fun i => hfinal⟩
  · unfold populate
    dsimp only
    rw [hriver]
    simp only [Except.mapError, ok_bind]
    rw [hbiomes]
    simp only [ok_bind]
    rw [← hg, he]
    rfl
  · obtain ⟨hharbour, hmarket⟩ := hground.toSameSurvey.places plan
    exact (hground.represented hfallback).settled (hground.toSameSurvey.boundsHold hbounds)
      (hheight.symm ▸ hfits) (hsurvey.trans hlast.toSameSurvey) fun i h h' =>
        hfinal (hharbour ▸ h) (hmarket ▸ h')

end populate

end FrontierDirectorate
