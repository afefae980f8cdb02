import Mathlib
import FrontierDirectorate.Core.Inputs
import FrontierDirectorate.Core.Hash
import FrontierDirectorate.Core.Road
import FrontierDirectorate.Core.Serialize

/-!
# World generation

`fd_generate_candidate` and the attempt loop of `fd_world_generate`.
-/
namespace FrontierDirectorate
open Checks

abbrev fdGenRejectRequiredDensityZero : UInt32 := 1
abbrev fdGenRejectTerrainCoverage : UInt32 := 2
abbrev fdGenRejectHydrology : UInt32 := 3
abbrev fdGenRejectSettlementPlacement : UInt32 := 4
abbrev fdGenRejectRoadCorridor : UInt32 := 5
abbrev fdGenRejectInvariant : UInt32 := 6

def syllables : List String :=
  ["a", "be", "cor", "da", "el", "fi", "gan", "ha",
   "io", "jor", "ka", "lum", "mer", "na", "or", "pel",
   "qui", "ran", "sa", "tor", "ul", "ven", "wa", "yor"]

def suffixes : List String := [" Reach", " Haven", " Market", " Council", " Survey", " Company"]

/-- A piece is copied only when the name stays shorter than its array. -/
def appendNamePiece (name : List UInt8) (piece : String) : List UInt8 :=
  let bytes := asciiBytes piece
  if name.length + bytes.length < fdMaxNameBytes then name ++ bytes else name

def capitalize (name : List UInt8) : List UInt8 :=
  match name with
  | [] => []
  | b :: rest => (if 97 ≤ b ∧ b ≤ 122 then b - 32 else b) :: rest

/-- A failing draw leaves the old length over what has been written. -/
def fdAssignName (draws : Draws) (entity : Entity) (domain : UInt32) (subject attempt : UInt64)
    (suffix : String) : Except (Entity × FdResult) Entity := do
  let written ← forEach (List.range 3) (fun written part =>
    match draws.bounded domain subject attempt (UInt64.ofNat part) fdRngSiteNamingSyllable
        (UInt32.ofNat syllables.length) with
    | .error result =>
        let left := (written ++ List.replicate fdMaxNameBytes 0).take entity.name.length
        .error ({ entity with name := left }, result)
    | .ok selected => .ok (appendNamePiece written (syllables.getD selected.toNat ""))) []
  return { entity with name := capitalize (appendNamePiece written suffix) }

/-- The entities before their names are drawn; a name keeps its old bytes. -/
def blankEntities (coastalX coastalY inlandX inlandY : Nat) (old : List.Vector Entity 6) :
    List.Vector Entity 6 :=
  let offMap := UInt32.ofNat uint32Max
  let id := fun slot : Nat => fdMakeEntityId (UInt32.ofNat slot + 1)
  let blank := fun (slot : Fin 6) (kind x y : UInt32) (owner : Nat) =>
    ({ id := id slot.val, kind := kind, x := x, y := y, regionId := id 0, ownerId := id owner,
       name := (old.get slot).name } : Entity)
  ⟨[blank 0 fdEntityRegion offMap offMap 3,
    blank 1 fdEntitySettlementCoastal (UInt32.ofNat coastalX) (UInt32.ofNat coastalY) 3,
    blank 2 fdEntitySettlementInland (UInt32.ofNat inlandX) (UInt32.ofNat inlandY) 3,
    blank 3 fdEntityPolityLocal offMap offMap 3,
    blank 4 fdEntityFactionForeign offMap offMap 4,
    blank 5 fdEntityFactionForeign offMap offMap 5], rfl⟩

def nameEntity (draws : Draws) (attempt : UInt64) (world : World) (index : Fin 6) :
    Except Halted World :=
  let domain := if index.val < 4 then fdRngDomainNaming else fdRngDomainFactionInitialization
  match fdAssignName draws (world.entity index) domain (UInt64.ofNat index.val + 1) attempt
      (suffixes.getD index.val "") with
  | .error (entity, result) =>
      .error ⟨{ world with entities := world.entities.set index entity }, result⟩
  | .ok entity => .ok { world with entities := world.entities.set index entity }

def fdInitializeEntities (draws : Draws) (world : World)
    (coastalX coastalY inlandX inlandY outlet : Nat) (attempt : UInt64) :
    Except Halted World := do
  let world ← forEach (List.finRange 6) (nameEntity draws attempt)
    { world with entities := blankEntities coastalX coastalY inlandX inlandY world.entities }
  let id := fun index => (world.entity index).id
  return { world with region := { world.region with
    id := id 0
    politicalOwnerId := id 3
    settlementIds := ⟨[id 1, id 2], rfl⟩
    foreignFactionIds := ⟨[id 4, id 5], rfl⟩
    riverOutletTileId := fdTileIdFromIndex outlet
    roadStartTileId := fdTileIdFromIndex (coastalY * world.width + coastalX)
    roadEndTileId := fdTileIdFromIndex (inlandY * world.width + inlandX) } }

/-- A rejected attempt: the world it leaves, its result and its reason. -/
structure Rejected where
  world : World
  result : FdResult
  reason : UInt32

/-- The stage gives up with a reason. -/
def Halted.because (reason : UInt32) (halted : Halted) : Rejected :=
  ⟨halted.world, halted.result, reason⟩

/-- The tile of the coastal settlement. -/
def World.harbourIndex (world : World) (plan : CandidatePlan) : Nat :=
  plan.coastalY * world.width + fdCoastX plan.westWater world.width world.baseWaterWidth

/-- The tile of the inland settlement. -/
def World.marketIndex (world : World) (plan : CandidatePlan) : Nat :=
  world.inlandY * world.width + world.inlandX plan.westWater

def World.settle (world : World) (index : Nat) (id : FdEntityId) : World :=
  world.modifyTile index fun tile =>
    { tile with terrain := fdTerrainSettlement, settlementId := id }

/-- From the raised land to the settlements. -/
def populate (draws : Draws) (plan : CandidatePlan) (attempt : UInt64)
    (constructiveFallback : Bool) (world : World) : Except Rejected World := do
  let coastalX := fdCoastX plan.westWater world.width world.baseWaterWidth
  let (world, outlet, count) ← (fdConstructRiver world plan.westWater world.baseWaterWidth
    plan.outletY plan.sourceY plan.tieChoice).mapError (Halted.because fdGenRejectHydrology)
  let world := { world with riverTileCount := UInt32.ofNat count }
  let world ← (assignBiomes draws attempt world).mapError (Halted.because fdGenRejectInvariant)
  let world := if constructiveFallback then patchRepresentatives plan world else world
  let world ← (fdInitializeEntities draws world coastalX plan.coastalY
    (world.inlandX plan.westWater) world.inlandY outlet attempt).mapError
      (Halted.because fdGenRejectInvariant)
  let world := world.settle (world.harbourIndex plan) (world.entity 1).id
  return world.settle (world.marketIndex plan) (world.entity 2).id

/-- The reason of a candidate that fails validation. -/
def rejectionReason (validation : ValidationReport) : UInt32 :=
  if validation.failedInvariants &&& fdInvariantTerrainCoverage ≠ 0 then fdGenRejectTerrainCoverage
  else if validation.failedInvariants &&& fdInvariantHydrology ≠ 0 then fdGenRejectHydrology
  else if validation.failedInvariants &&& fdInvariantSettlements ≠ 0 then
    fdGenRejectSettlementPlacement
  else fdGenRejectInvariant

/-- From the road to the verdict. -/
def concludeCandidate (world : World) : Except Rejected (World × ValidationReport) :=
  let world := { world with region := { world.region with
    riverTileCount := world.riverTileCount
    roadTileCount := world.roadTileCount } }
  let validation := fdWorldValidateInternal world
  if validation.failedInvariants ≠ 0 then
    .error ⟨world, fdErrGenerationExhausted, rejectionReason validation⟩
  else .ok (fdWorldComputeHash world, validation)

/-- The plan and the coast, before anything is allocated. -/
def layCandidate (draws : Draws) (attempt : UInt64) (constructiveFallback : Bool) (world : World) :
    Except Halted (CandidatePlan × World) := do
  let plan ← drawPlan draws world attempt
  let world ← layCoast draws plan attempt constructiveFallback world
  return (plan, world)

def fdGenerateCandidate (context : FdContext) (draws : Draws) (world : World) (attempt : UInt64)
    (constructiveFallback : Bool) :
    StateM Ledger (Except Rejected (World × ValidationReport)) := do
  match layCandidate draws attempt constructiveFallback world with
  | .error halted => return .error (halted.because fdGenRejectInvariant)
  | .ok (plan, world) =>
    match ← fdApplyElevationFields context draws attempt world with
    | .error halted => return .error (halted.because fdGenRejectInvariant)
    | .ok world =>
      match populate draws plan attempt constructiveFallback world with
      | .error rejected => return .error rejected
      | .ok world =>
        match ← fdConstructRoad context draws world (world.harbourIndex plan)
            (world.marketIndex plan) attempt with
        | .error halted => return .error (halted.because fdGenRejectRoadCorridor)
        | .ok world => return concludeCandidate world

structure GenerationAttempt where
  attemptIndex : UInt32
  reasonCode : UInt32
deriving DecidableEq, Repr

/-- `recorded_count` is the length of `attempts`. -/
structure GenerationReport where
  structSize : UInt32
  abiVersion : UInt32
  acceptedAttempt : UInt32
  rejectedCount : UInt32
  landTileCount : Nat
  riverTileCount : Nat
  roadTileCount : Nat
  riverRaisedTileCount : UInt32
  riverMinCarveCm : UInt32
  rootSeedLe : List.Vector UInt8 16
  configurationSha256 : Digest
  contentSha256 : Digest
  initialStateSha256 : Digest
  attempts : List GenerationAttempt
deriving DecidableEq

def rootSeed (seed : UInt64) : List.Vector UInt8 16 :=
  ⟨fdStoreU64Le seed ++ List.replicate 8 0, rfl⟩

def zeroDigest : Digest := List.Vector.replicate 32 0

def blankReport (config : WorldConfig) (seed : UInt64) (packs : List ContentPack) :
    GenerationReport where
  structSize := sizeofFdGenerationReport
  abiVersion := fdAbiVersion
  acceptedAttempt := UInt32.ofNat uint32Max
  rejectedCount := 0
  landTileCount := 0
  riverTileCount := 0
  roadTileCount := 0
  riverRaisedTileCount := 0
  riverMinCarveCm := 0
  rootSeedLe := rootSeed seed
  configurationSha256 := fdHashConfigInternal config
  contentSha256 := fdHashContentInternal packs
  initialStateSha256 := zeroDigest
  attempts := []

/-- Every attempt is recorded as impossible when a required density is zero. -/
def GenerationReport.impossible (report : GenerationReport) (attemptBudget : UInt32) :
    GenerationReport :=
  { report with
    rejectedCount := attemptBudget
    attempts := (List.range attemptBudget.toNat).map fun attempt =>
      ⟨UInt32.ofNat attempt, fdGenRejectRequiredDensityZero⟩ }

def GenerationReport.accept (report : GenerationReport) (attempt : Nat) (world : World)
    (validation : ValidationReport) : GenerationReport :=
  { report with
    acceptedAttempt := UInt32.ofNat attempt
    landTileCount := validation.landTileCount
    riverTileCount := validation.riverTileCount
    roadTileCount := validation.roadTileCount
    riverRaisedTileCount := world.riverRaisedTileCount
    riverMinCarveCm := world.riverMinCarveCm
    initialStateSha256 := world.stateSha256 }

def GenerationReport.reject (report : GenerationReport) (attempt : Nat) (reason : UInt32) :
    GenerationReport :=
  { report with
    rejectedCount := report.rejectedCount + 1
    attempts := report.attempts ++ [⟨UInt32.ofNat attempt, reason⟩] }

/-- The world an attempt starts from, before its first tile is laid. -/
def emptyWorld (config : WorldConfig) (seed : UInt64) (packs : List ContentPack)
    (worldBytes : Nat) : World where
  config := { config with structSize := sizeofFdWorldConfig, abiVersion := fdAbiVersion }
  rootSeedLe := rootSeed seed
  content := ContentTable.copy packs
  configurationSha256 := fdHashConfigInternal config
  contentSha256 := fdHashContentInternal packs
  tick := 0
  tiles := List.replicate (config.width.toNat * config.height.toNat) Tile.zero
  entities := List.Vector.replicate 6 Entity.zero
  region := Region.zero
  riverTileCount := 0
  roadTileCount := 0
  landTileCount := 0
  riverRaisedTileCount := 0
  riverMinCarveCm := 0
  allocationSize := UInt32.ofNat worldBytes
  stateSha256 := zeroDigest

def World.rngScope (world : World) : RngScope :=
  ⟨world.rootSeedLe, world.config.generatorVersion, world.config.rulesetVersion⟩

/-- The attempts from `attempt` on, `left` of them; only the last one is the fallback. -/
def runAttempts (context : FdContext) (draws : Draws) :
    (left attempt : Nat) → World → GenerationReport →
    StateM Ledger (GenerationReport × Except FdResult World)
  | 0, _, _, report => return (report, .error fdErrGenerationExhausted)
  | left + 1, attempt, world, report => do
    match ← fdGenerateCandidate context draws world (UInt64.ofNat attempt) (left == 0) with
    | .ok (world, validation) => return (report.accept attempt world validation, .ok world)
    | .error rejected =>
        let report := report.reject attempt rejected.reason
        if rejected.result = fdErrOutOfMemory then return (report, .error fdErrOutOfMemory)
        else runAttempts context draws left (attempt + 1) rejected.world report

/-- The checks of `fd_world_generate` before anything is computed. -/
def generateChecks (config : WorldConfig) (content : ContentManifest) (out : Option StructHeader) :
    Except Fail Unit := do
  failIf (out.any fun header => !fdOutputStructValid header sizeofFdGenerationReport)
    (fdDiagSet fdErrInvalidSize fdFieldStructSize 0 "invalid generation report output")
  fdValidateGenerationInputsInternal config content

/-- The report is written on every exit that has one to write. -/
def fdWorldGenerate (context : FdContext) (config : WorldConfig) (seed : UInt64)
    (content : ContentManifest) (out : Option StructHeader) :
    StateM Ledger (Option GenerationReport × Except Fail World) := do
  match generateChecks config content out with
  | .error failure => return (none, .error failure)
  | .ok () =>
    let report := blankReport config seed content.packs
    if config.forestDensityPpm = 0 ∨ config.hillDensityPpm = 0 ∨ config.wetlandDensityPpm = 0 then
      return (out.map fun _ => report.impossible config.attemptBudget,
        .error (fdDiagSet fdErrGenerationExhausted fdFieldTerrainDensity (config.attemptBudget - 1)
          "required terrain density makes generation impossible"))
    else
      let tileBytes := config.width.toNat * config.height.toNat * sizeofFdTile
      let size := tileBytes + sizeofFdWorld
      if context.maxLiveWorldBytes.toNat < size ∨ uint32Max < tileBytes then
        return (none, .error (fdDiagSet fdErrCapacity fdFieldBufferCapacity 0
          "configured world exceeds context byte limit"))
      else if !(← fdContextAlloc context worldBytes) then
        return (none, .error (outOfMemory "world allocation failed"))
      else if !(← fdContextAlloc context (UInt64.ofNat tileBytes)) then
        fdContextFree true worldBytes
        return (none, .error (outOfMemory "world tile allocation failed"))
      else
        let world := emptyWorld config seed content.packs size
        let ran ← runAttempts context world.rngScope.draws config.attemptBudget.toNat 0 world report
        match ran.2 with
        | .ok world =>
            addHandle
            return (out.map fun _ => ran.1, .ok world)
        | .error result =>
            fdContextFree true (UInt64.ofNat tileBytes)
            fdContextFree true worldBytes
            return (out.map fun _ => ran.1, .error (fdDiagSet
              (if result = fdErrOutOfMemory then fdErrOutOfMemory else fdErrGenerationExhausted)
              fdFieldAttemptBudget ran.1.rejectedCount
              "bounded generation exhausted without publishing a world"))

end FrontierDirectorate
