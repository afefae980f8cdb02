import Mathlib
import FrontierDirectorate.Core.Sha256

/-!
# Counter-based random draws

`fd_rng.c`: Philox4x32-10 keyed by a digest of the semantic scope. The generator
sees the draws of one world through `Draws`, so that statements about generation
can range over every outcome of the draws.
-/
namespace FrontierDirectorate
open ByteCodec

abbrev fdRngDomainCoast : UInt32 := 1
abbrev fdRngDomainElevationLattice : UInt32 := 2
abbrev fdRngDomainRiverSource : UInt32 := 3
abbrev fdRngDomainRiverTieBreak : UInt32 := 4
abbrev fdRngDomainBiomeAssignment : UInt32 := 5
abbrev fdRngDomainSettlementPlacement : UInt32 := 6
abbrev fdRngDomainRoadCandidate : UInt32 := 7
abbrev fdRngDomainNaming : UInt32 := 8
abbrev fdRngDomainFactionInitialization : UInt32 := 9

abbrev fdRngSiteCoastFacing : UInt32 := 0x0101
abbrev fdRngSiteCoastRowOffset : UInt32 := 0x0102
abbrev fdRngSiteElevationTile : UInt32 := 0x0201
abbrev fdRngSiteRiverSourceRow : UInt32 := 0x0301
abbrev fdRngSiteRiverTie : UInt32 := 0x0401
abbrev fdRngSiteBiomeTile : UInt32 := 0x0501
abbrev fdRngSiteSettlementRow : UInt32 := 0x0601
abbrev fdRngSiteRoadTie : UInt32 := 0x0701
abbrev fdRngSiteNamingSyllable : UInt32 := 0x0801

/-- Four 32-bit lanes. -/
structure Lanes where
  lane0 : UInt32
  lane1 : UInt32
  lane2 : UInt32
  lane3 : UInt32
deriving DecidableEq, Repr

def Lanes.get (lanes : Lanes) : Nat → UInt32
  | 0 => lanes.lane0
  | 1 => lanes.lane1
  | 2 => lanes.lane2
  | _ => lanes.lane3

def fdMul32 (left right : UInt32) : UInt64 := left.toUInt64 * right.toUInt64

def philoxRound (value : Lanes) (key0 key1 : UInt32) : Lanes :=
  let product0 := fdMul32 0xd2511f53 value.lane0
  let product1 := fdMul32 0xcd9e8d57 value.lane2
  { lane0 := (product1 >>> 32).toUInt32 ^^^ value.lane1 ^^^ key0
    lane1 := product1.toUInt32
    lane2 := (product0 >>> 32).toUInt32 ^^^ value.lane3 ^^^ key1
    lane3 := product0.toUInt32 }

/-- `rounds` rounds with the key schedule advancing after each. -/
def philoxRounds : Nat → Lanes → UInt32 → UInt32 → Lanes
  | 0, value, _, _ => value
  | rounds + 1, value, key0, key1 =>
      philoxRounds rounds (philoxRound value key0 key1) (key0 + 0x9e3779b9) (key1 + 0xbb67ae85)

def fdPhilox4x32_10 (counter : Lanes) (key0 key1 : UInt32) : Lanes :=
  philoxRounds 10 counter key0 key1

/-- The scope one world draws in. -/
structure RngScope where
  rootSeedLe : List.Vector UInt8 16
  generatorVersion : UInt32
  rulesetVersion : UInt32

def fdRngDigest (scope : RngScope) (domainId : UInt32) (subjectId occurrenceId : UInt64) : Digest :=
  sha256Pieces [
    fdStoreU32Le 26, asciiBytes "FrontierDirectorate/RNG/v1",
    fdStoreU32Le 16, scope.rootSeedLe.toList,
    fdStoreU32Le 4, fdStoreU32Le scope.generatorVersion,
    fdStoreU32Le 4, fdStoreU32Le scope.rulesetVersion,
    fdStoreU32Le 4, fdStoreU32Le domainId,
    fdStoreU32Le 8, fdStoreU64Le subjectId,
    fdStoreU32Le 8, fdStoreU64Le occurrenceId]

def fdRngU32Retry (scope : RngScope) (domainId : UInt32) (subjectId occurrenceId : UInt64)
    (logicalSampleIndex : UInt64) (drawSiteId retryBlock : UInt32) (lane : Nat) : UInt32 :=
  let digest := (fdRngDigest scope domainId subjectId occurrenceId).toList
  let key0 := fdLoadU32Le digest ^^^ fdLoadU32Le (digest.drop 24)
  let key1 := fdLoadU32Le (digest.drop 4) ^^^ fdLoadU32Le (digest.drop 28)
  let counter : Lanes := {
    lane0 := fdLoadU32Le (digest.drop 8) ^^^ logicalSampleIndex.toUInt32
    lane1 := fdLoadU32Le (digest.drop 12) ^^^ (logicalSampleIndex >>> 32).toUInt32
    lane2 := fdLoadU32Le (digest.drop 16) ^^^ drawSiteId
    lane3 := fdLoadU32Le (digest.drop 20) ^^^ retryBlock }
  (fdPhilox4x32_10 counter key0 key1).get lane

def fdRngU32 (scope : RngScope) (domainId : UInt32) (subjectId occurrenceId : UInt64)
    (logicalSampleIndex : UInt64) (drawSiteId : UInt32) : UInt32 :=
  let lane := (logicalSampleIndex &&& 3).toNat
  fdRngU32Retry scope domainId subjectId occurrenceId logicalSampleIndex drawSiteId 0 lane

/-- The first of 256 × 4 candidates at or above the rejection threshold, reduced. -/
def fdRngBounded (scope : RngScope) (domainId : UInt32) (subjectId occurrenceId : UInt64)
    (logicalSampleIndex : UInt64) (drawSiteId upperBound : UInt32) : Except FdResult UInt32 :=
  if upperBound = 0 then .error fdErrInvalidArgument
  else
    let threshold := UInt32.ofNat (2 ^ 32 % upperBound.toNat)
    let accepted := (List.range 256).findSome? fun block =>
      (List.range 4).findSome? fun lane =>
        let value := fdRngU32Retry scope domainId subjectId occurrenceId logicalSampleIndex
          drawSiteId (UInt32.ofNat block) lane
        if threshold ≤ value then some (value % upperBound) else none
    match accepted with
    | some value => .ok value
    | none => .error fdErrCapacity

/-- The draws a generation attempt can make: bounded ones, which may run out of
candidates, and raw words. -/
structure Draws where
  bounded : (domainId : UInt32) → (subjectId occurrenceId logicalSampleIndex : UInt64) →
    (drawSiteId upperBound : UInt32) → Except FdResult UInt32
  word : (domainId : UInt32) → (subjectId occurrenceId logicalSampleIndex : UInt64) →
    (drawSiteId : UInt32) → UInt32

/-- The draws of the random number generator in one scope. -/
def RngScope.draws (scope : RngScope) : Draws where
  bounded := fdRngBounded scope
  word := fdRngU32 scope

end FrontierDirectorate
