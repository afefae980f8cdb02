import Mathlib
import FrontierDirectorate.Contract.Generation
import FrontierDirectorate.Contract.Roads
import FrontierDirectorate.Core.CandidateMap
import FrontierDirectorate.Core.MapReport

/-!
# Candidates

Whatever is drawn, an attempt that has its memory gives a map with all its invariants, unless
its road crosses the river twice or some terrain is missing.
-/
namespace FrontierDirectorate
open Checks ShortestPath

section finished

variable {plan : CandidatePlan} {waterWidth : Nat → Nat} {world paved : World} {path : List Nat}
  {cost : Nat → Nat}

/-- The map with its road differs from the map without in its road bits and counts. -/
theorem sameWater_of_road (h : world.RoadLaid paved path) :
    world.SameWater paved.counted ∧ (∀ i, paved.counted.terrain i = world.terrain i) ∧
      (∀ i, (paved.counted.tile i).settlementId = (world.tile i).settlementId) ∧
      paved.counted.entities = world.entities ∧
      paved.counted.riverTileCount = world.riverTileCount ∧
      { paved.counted.region with riverTileCount := 0, roadTileCount := 0 } =
        { world.region with riverTileCount := 0, roadTileCount := 0 } := by
  have htile : ∀ i, paved.counted.tile i =
      { world.tile i with overlays := (paved.counted.tile i).overlays } := h.same.tile
  have hoverlays : ∀ i, (paved.counted.tile i).overlays &&& ~~~ roadBits =
      (world.tile i).overlays &&& ~~~ roadBits := h.same.overlays
  have hrest := h.same.rest
  have hconfig : paved.config = world.config := (congrArg World.config hrest :)
  have hland : paved.landTileCount = world.landTileCount := (congrArg World.landTileCount hrest :)
  have hraised : paved.riverRaisedTileCount = world.riverRaisedTileCount :=
    (congrArg World.riverRaisedTileCount hrest :)
  have hentities : paved.entities = world.entities := (congrArg World.entities hrest :)
  have hriver : paved.riverTileCount = world.riverTileCount :=
    (congrArg World.riverTileCount hrest :)
  have hregion : paved.region = world.region := (congrArg World.region hrest :)
  have hterrain : ∀ i, paved.counted.terrain i = world.terrain i := fun i => by
    rw [World.terrain, htile i]
    rfl
  refine ⟨⟨⟨hconfig, h.same.tileCount, hland, hraised⟩, hoverlays, fun i => ?_, fun i => ?_,
    fun i => ?_⟩, hterrain, fun i => ?_, hentities, hriver, by rw [← hregion]; rfl⟩
  · rw [htile i]
  · rw [htile i]
  · rw [hterrain]
  · rw [htile i]

/-- The map is finished with its road. -/
theorem finished_of_road (h : world.Settled plan waterWidth)
    (hland : world.landTileCount = UInt32.ofNat (landArea world.width world.height waterWidth))
    (hharbour : world.Land (world.harbourIndex plan))
    (hroad : world.CheapestRoad cost (world.harbourIndex plan) (world.marketIndex plan) path)
    (hlaid : world.RoadLaid paved path) (hrivers : (world.rivers path).length ≤ 1) :
    paved.counted.Finished plan waterWidth path.reverse := by
  obtain ⟨hsame, hterrain, hids, hentities, hcount, hregion⟩ := sameWater_of_road hlaid
  obtain ⟨hwidth, hheight⟩ := hsame.sizes
  obtain ⟨hplace, hplace'⟩ := hsame.places plan
  obtain ⟨total, hway, -⟩ := hroad.cheapest
  obtain ⟨hhead, hlast⟩ := hway.head_last
  have hground := hway.forall_mem hharbour fun _ _ hstep => hstep.2.1
  have hriver : ∀ i, paved.counted.hasOverlay i fdTileOverlayRiver =
      world.hasOverlay i fdTileOverlayRiver := hsame.hasOverlay (by decide)
  have hmarks : ∀ i, paved.counted.hasOverlay i fdTileOverlayRoadCandidate = true ↔ i ∈ path :=
    hlaid.road
  have hwatered : paved.counted.Watered plan waterWidth := by
    refine h.toWatered.transfer hsame (fun i hi => ?_) ?_
    · rw [World.KnownTerrain, ← World.terrain, hterrain]
      exact ⟨(h.rules i hi).known, (h.rules i hi).wetlands⟩
    · rw [hterrain]
      exact h.source
  constructor
  · exact hwatered
  · intro i hi
    rw [hsame.tileCount] at hi
    rw [hterrain, hplace, hplace']
    exact h.settled i hi
  · intro i hi
    rw [hsame.tileCount] at hi
    rw [hids, hplace, hplace']
    exact h.ids i hi
  · unfold World.baseWaterWidth World.inlandX World.inlandY
    rw [hwidth, hheight]
    refine ⟨fun index => ?_, fun index => ?_, ?_⟩
    · rw [World.entity, hentities]
      exact h.peopled.people index
    · rw [World.entity, hentities]
      exact h.peopled.names index
    · rw [hregion, hwidth]
      exact h.peopled.region
  · rw [hwidth, hheight]
    exact hsame.landTileCount.trans hland
  · rw [hwidth]
    exact hcount.trans h.riverTileCount
  · rw [List.length_reverse]
    exact hlaid.count
  · exact ⟨rfl, rfl⟩
  · refine ⟨fun i => ?_, ?_⟩
    · rw [List.mem_reverse, World.Carries, hmarks, hsame.tileCount]
      exact ⟨fun hi => ⟨(hground i hi).1, hi⟩, fun hi => hi.2⟩
    · have hadjacent : paved.counted.Adjacent = world.Adjacent := by
        unfold World.Adjacent
        rw [hwidth]
      rw [hadjacent]
      exact hroad.induced.reverse
  · rw [List.head?_reverse, List.getLast?_reverse, hplace, hplace', hhead, hlast]
    exact ⟨rfl, rfl⟩
  · intro i hi
    rw [hterrain]
    exact (hground i (List.mem_reverse.mp hi)).2
  · have hsameRivers : paved.counted.rivers path.reverse = world.rivers path.reverse :=
      congrArg path.reverse.filter (funext hriver)
    rw [hsameRivers, World.rivers, ((List.reverse_perm path).filter _).length_eq]
    exact hrivers
  · intro i hi
    rw [hmarks, hriver]
    refine (hlaid.crossing i).trans ?_
    rw [World.rivers, List.mem_filter]

/-- The report on the map with its road. -/
theorem report_of_road (h : world.Settled plan waterWidth) (hbounds : world.boundsHold)
    (hfits : plan.Fits world.height) (hshore : ShoreLine plan world waterWidth)
    (hland : world.landTileCount = UInt32.ofNat (landArea world.width world.height waterWidth))
    (hharbour : world.Land (world.harbourIndex plan))
    (hroad : world.CheapestRoad cost (world.harbourIndex plan) (world.marketIndex plan) path)
    (hlaid : world.RoadLaid paved path) (hrivers : (world.rivers path).length ≤ 1) :
    (∃ river, paved.counted.RisingRiver river) ∧
      (fdWorldValidateInternal paved.counted).failedInvariants =
        (if (scanTiles paved.counted).coverageHolds then 0 else fdInvariantTerrainCoverage) ∧
      (world.Represented plan → (scanTiles paved.counted).coverageHolds) := by
  obtain ⟨hsame, hterrain, -⟩ := sameWater_of_road hlaid
  obtain ⟨hwidth, hheight⟩ := hsame.sizes
  have hfinished := finished_of_road h hland hharbour hroad hlaid hrivers
  have hbounds' := hsame.toSameSurvey.boundsHold hbounds
  have hfits' : plan.Fits paved.counted.height := hheight.symm ▸ hfits
  have hshore' := hshore.congr hwidth
  refine ⟨⟨_, risingRiver_ok hbounds' hfits' hshore' hfinished⟩,
    report_of_finished hbounds' hfits' hshore' hfinished, fun hrepresented =>
      coverage_of_represented hbounds' hfits' hshore' hfinished ?_⟩
  constructor
  · rw [hterrain, hwidth]
    exact hrepresented.wetlands
  · rw [hterrain, hwidth, hheight]
    exact hrepresented.forest
  · rw [hterrain, hwidth, hheight]
    exact hrepresented.grassland

end finished

section candidates

variable {context : FdContext} {draws : Draws} {attempt : UInt64} {fallback : Bool}

/-- The map an attempt has before its road. -/
def LaysOut (context : FdContext) (draws : Draws) (attempt : UInt64) (fallback : Bool)
    (world : World) (s : Ledger) (plan : CandidatePlan) (settled : World) : Prop :=
  ∃ laid raised, layCandidate draws attempt fallback world = .ok (plan, laid) ∧
    (fdApplyElevationFields context draws attempt laid s).1 = .ok raised ∧
    populate draws plan attempt fallback raised = .ok settled

/-- The outcome of an attempt whose road meets so many river tiles. -/
structure SoundOutcome (fallback : Bool) (rivers : Nat)
    (outcome : Except Rejected (World × ValidationReport)) : Prop where
  rejected : ∀ a, outcome = .error a → a.world.riverRaisedTileCount = 0 ∧
    a.result = fdErrGenerationExhausted ∧
      (a.reason = fdGenRejectRoadCorridor ∨
        a.reason = fdGenRejectTerrainCoverage ∧ fallback = false)
  corridor : (∃ a, outcome = .error a ∧ a.reason = fdGenRejectRoadCorridor) ↔ 1 < rivers
  accepted : ∀ world report, outcome = .ok (world, report) → world.riverRaisedTileCount = 0 ∧
    world.Valid ∧ ∃ river, world.RisingRiver river

/-- An attempt whose road has two river tiles. -/
theorem soundOutcome_of_second {rivers : Nat} {a : Rejected} (h : 1 < rivers)
    (hresult : a.result = fdErrGenerationExhausted) (hreason : a.reason = fdGenRejectRoadCorridor)
    (hraised : a.world.riverRaisedTileCount = 0) :
    SoundOutcome fallback rivers (.error a) where
  rejected := by
    rintro _ ⟨⟩
    exact ⟨hraised, hresult, .inl hreason⟩
  corridor := iff_of_true ⟨a, rfl, hreason⟩ h
  accepted := by
    rintro world report ⟨⟩

/-- The verdict on a map whose report misses the coverage at most. -/
theorem soundOutcome_of_conclusion {rivers : Nat} {world : World} (h : rivers ≤ 1)
    (hriver : ∃ river, world.counted.RisingRiver river)
    (hraised : world.riverRaisedTileCount = 0)
    (hreport : (fdWorldValidateInternal world.counted).failedInvariants =
      if (scanTiles world.counted).coverageHolds then 0 else fdInvariantTerrainCoverage)
    (hcoverage : fallback = true → (scanTiles world.counted).coverageHolds) :
    SoundOutcome fallback rivers (concludeCandidate world) := by
  rw [concludeCandidate_eq]
  by_cases hcovered : (scanTiles world.counted).coverageHolds
  · rw [if_pos hcovered] at hreport
    rw [if_neg (not_not.mpr hreport)]
    constructor
    · rintro a ⟨⟩
    · refine iff_of_false ?_ (Nat.not_lt.mpr h)
      rintro ⟨a, ⟨⟩, -⟩
    · rintro w report ⟨⟩
      obtain ⟨river, hriver⟩ := hriver
      refine ⟨hraised, ?_, river, ⟨hriver.tiles.mem_iff, hriver.tiles.induced⟩, hriver.length,
        hriver.rising, hriver.ground, hriver.outlet, hriver.mouth, hriver.source⟩
      have hmap : SameMap world.counted (fdWorldComputeHash world.counted) :=
        ⟨rfl, rfl, rfl, rfl, rfl⟩
      exact hmap.valid_of_valid rfl rfl rfl hreport
  · rw [if_neg hcovered] at hreport
    have hfailed : (fdWorldValidateInternal world.counted).failedInvariants ≠ 0 := by
      rw [hreport]
      decide
    have hreason : rejectionReason (fdWorldValidateInternal world.counted) =
        fdGenRejectTerrainCoverage := by
      unfold rejectionReason
      rw [hreport]
      exact if_pos (by decide)
    rw [if_pos hfailed]
    constructor
    · rintro a ⟨⟩
      refine ⟨hraised, rfl, .inr ⟨hreason, ?_⟩⟩
      rw [Bool.eq_false_iff]
      exact fun hfallback => hcovered (hcoverage hfallback)
    · refine iff_of_false ?_ (Nat.not_lt.mpr h)
      rintro ⟨a, ⟨⟩, hcorridor⟩
      exact absurd (hreason.symm.trans hcorridor) (by decide)
    · rintro w report ⟨⟩

/-- The verdict on a map, by the road that it gets. -/
theorem verdict_of_map (hcontext : context.NeverFails) {plan : CandidatePlan}
    {waterWidth : Nat → Nat} {settled : World}
    (h : CandidateMap draws attempt fallback plan waterWidth settled) (s : Ledger) :
    ∃ path, settled.CheapestRoad (fdRoadCost draws attempt settled) (settled.harbourIndex plan)
        (settled.marketIndex plan) path ∧
      SoundOutcome fallback (settled.rivers path).length
        ((roadOver (fdRoadCost draws attempt settled) settled (settled.harbourIndex plan)
          (settled.marketIndex plan)).mapError (Halted.because fdGenRejectRoadCorridor) >>=
            concludeCandidate) := by
  obtain ⟨hharbour, hmarket, -, hground, hground', -⟩ :=
    settlements_apart h.bounds h.fits h.shore h.toWatered
  have hcoast := landCoast_ok h.bounds h.shore h.toWatered
  rw [World.landCoastHolds, Bool.and_eq_true] at hcoast
  have hpath := (landPath_of_coast h.bounds hcoast.2).2 _ _ ⟨hharbour, hground⟩
    ⟨hmarket, hground'⟩
  obtain ⟨-, -, hroad⟩ := road_is_canonical settled context draws attempt s
    (settled.harbourIndex plan) (settled.marketIndex plan) h.bounds
    (fun i hi => (h.rules i hi).known) h.free ⟨hharbour, hground⟩ (hcontext.grants s 4 _)
  obtain ⟨path, hcheapest, hone, hmore⟩ := hroad hpath
  rw [constructRoad_neverFails hcontext h.bounds] at hone hmore
  refine ⟨path, hcheapest, ?_⟩
  rcases Nat.lt_or_ge 1 (settled.rivers path).length with hsecond | hfirst
  · obtain ⟨traced, -, htraced⟩ := hmore hsecond
    have htrace : settled.SameBut (settled.addOverlays fdTileOverlayRoadCandidate traced)
        (~~~ roadBits) := sameBut_addOverlays (by decide) traced
    rw [htraced]
    exact soundOutcome_of_second hsecond rfl rfl
      ((congrArg World.riverRaisedTileCount htrace.rest).trans h.raised)
  · obtain ⟨paved, hpaved, hbuilt⟩ := hone hfirst
    obtain ⟨hriver, hreport, hcoverage⟩ := report_of_road h.toSettled h.bounds h.fits h.shore
      h.landTileCount ⟨hharbour, hground⟩ hcheapest hpaved hfirst
    rw [hbuilt]
    refine soundOutcome_of_conclusion hfirst hriver ?_ hreport
      fun hfallback => hcoverage (h.represented hfallback)
    exact (sameWater_of_road hpaved).1.riverRaisedTileCount.trans h.raised

/-- An attempt with its memory lays a map and then gets the verdict on it. -/
theorem candidate_verdict (hcontext : context.NeverFails) (hdraws : draws.Answer) {world : World}
    (hbounds : world.boundsHold) (attempt : UInt64) (fallback : Bool) (s : Ledger) :
    ∃ plan waterWidth settled path, LaysOut context draws attempt fallback world s plan settled ∧
      settled.config = world.config ∧
      CandidateMap draws attempt fallback plan waterWidth settled ∧
      settled.CheapestRoad (fdRoadCost draws attempt settled) (settled.harbourIndex plan)
        (settled.marketIndex plan) path ∧
      SoundOutcome fallback (settled.rivers path).length
        (fdGenerateCandidate context draws world attempt fallback s).1 := by
  obtain ⟨plan, waterWidth, laid, raised, settled, hlay, hraise, hpopulate, hconfig, -, hmap⟩ :=
    candidateMap_answer hdraws attempt fallback hbounds
  obtain ⟨path, hcheapest, houtcome⟩ := verdict_of_map hcontext hmap s
  have hlaid : laid.boundsHold := (staysIn_layCandidate.ok hlay).boundsHold hbounds
  refine ⟨plan, waterWidth, settled, path, ⟨laid, raised, hlay, ?_, hpopulate⟩, hconfig, hmap,
    hcheapest, ?_⟩
  · rw [elevationFields_neverFails hcontext hlaid]
    exact hraise
  · rw [generateCandidate_neverFails hcontext hbounds, candidateOver, hlay]
    simp only [Except.mapError, ok_bind]
    rw [hraise]
    simp only [ok_bind, hpopulate]
    exact houtcome

/-- Whatever is drawn, an attempt with its memory fails for nothing but a road that meets two
river tiles or, unless it is the fallback, missing terrain. -/
theorem candidate_sound (hcontext : context.NeverFails) (hdraws : draws.Answer)
    {config : WorldConfig} {content : ContentManifest}
    (hinputs : fdValidateGenerationInputsInternal config content = .ok ()) (seed : UInt64)
    (worldBytes : Nat) (attempt : UInt64) (fallback : Bool) {world : World}
    (hworld : (emptyWorld config seed content.packs worldBytes).SameFrame world) (s : Ledger) :
    ∃ plan settled path, LaysOut context draws attempt fallback world s plan settled ∧
      settled.CheapestRoad (fdRoadCost draws attempt settled) (settled.harbourIndex plan)
        (settled.marketIndex plan) path ∧
      SoundOutcome fallback (settled.rivers path).length
        (fdGenerateCandidate context draws world attempt fallback s).1 := by
  have hbounds : world.boundsHold :=
    hworld.boundsHold (emptyWorld_boundsHold (inputsValid_iff.mp hinputs) worldBytes)
  obtain ⟨plan, -, settled, path, hlays, -, -, hroad, houtcome⟩ :=
    candidate_verdict hcontext hdraws hbounds attempt fallback s
  exact ⟨plan, settled, path, hlays, hroad, houtcome⟩

theorem leastDraws_answer : leastDraws.Answer :=
  fun _ _ _ _ _ _ hbound => ⟨0, rfl, UInt32.pos_iff_ne_zero.mpr hbound⟩

/-- The third attempt of the sample over a used buffer, with the least draws. -/
theorem candidate_sound_sample : ∃ plan settled path,
    LaysOut sampleContext leastDraws 3 false
      ((emptyWorld sampleConfig 7 [] 0).setTerrain 40 fdTerrainHills) Ledger.zero plan settled ∧
    settled.CheapestRoad (fdRoadCost leastDraws 3 settled) (settled.harbourIndex plan)
      (settled.marketIndex plan) path ∧
    SoundOutcome false (settled.rivers path).length (fdGenerateCandidate sampleContext leastDraws
      ((emptyWorld sampleConfig 7 [] 0).setTerrain 40 fdTerrainHills) 3 false Ledger.zero).1 :=
  have hinputs : fdValidateGenerationInputsInternal sampleConfig (contentManifest []) = .ok () := by
    decide
  candidate_sound sampleContext_neverFails leastDraws_answer hinputs 7 0 3 false
    (World.SameFrame.setTerrain _ _ _) Ledger.zero

end candidates

end FrontierDirectorate
