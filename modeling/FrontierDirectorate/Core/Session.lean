import Mathlib
import FrontierDirectorate.Core.Accounts
import FrontierDirectorate.Core.Clock
import FrontierDirectorate.Core.Runs
import FrontierDirectorate.Core.Views

/-!
# Sessions

The handles of one context and the calls that create, change and destroy them. A
handle argument is a position in the list of live handles; any other position
stands for a null pointer.
-/
namespace FrontierDirectorate
open Accounting Checks

abbrev fdVisibilityReference : UInt32 := 1

/-- `struct fd_snapshot`, the parts its destruction and its readers use. -/
structure Snapshot where
  info : WorldInfo
  tiles : List Tile
  entities : List.Vector Entity 6
  region : Region
  tileAllocationSize : UInt32

def snapshotBytes : UInt64 := UInt64.ofNat sizeofFdSnapshot

def fdSnapshotCreate (context : FdContext) (world : World) (scope : UInt32)
    (viewer : FdEntityId) : StateM Ledger (Except Fail Snapshot) := do
  if scope ≠ fdVisibilityReference ∨ viewer ≠ 0 then
    return .error (fdDiagSet fdErrOutOfRange fdFieldEntityId 0
      "U01 supports only viewer-zero reference snapshots")
  else if !(← fdContextAlloc context snapshotBytes) then
    return .error (outOfMemory "snapshot allocation failed")
  else if !(← fdContextAlloc context (worldTileBytes world)) then
    fdContextFree true snapshotBytes
    return .error (outOfMemory "snapshot tile allocation failed")
  else
    addHandle
    return .ok {
      info := fdFillWorldInfo world
      tiles := world.tiles
      entities := world.entities
      region := world.region
      tileAllocationSize := (worldTileBytes world).toUInt32 }

def fdSnapshotDestroy (snapshot : Snapshot) : StateM Ledger Unit := do
  fdContextFree true snapshot.tileAllocationSize.toUInt64
  fdContextFree true snapshotBytes
  dropHandle

/-- The checks of `fd_context_destroy`. -/
def fdContextDestroy (s : Ledger) : Except Fail Unit :=
  failIf (s.liveHandles ≠ 0)
    (fdDiagSet fdErrBusy fdFieldNone 0 "context still owns live handles")

/-- A live world, with the state it was created in and the decisions it has accepted since. -/
structure LiveWorld where
  world : World
  origin : World
  accepted : List JointDecision

def LiveWorld.created (world : World) : LiveWorld := ⟨world, world, []⟩

/-- One context and its handles. -/
structure Session where
  opened : Bool
  ledger : Ledger
  worlds : List LiveWorld
  snapshots : List Snapshot
  replays : List Replay

/-- A context right after `fd_context_create`. -/
def Session.start : Session := ⟨true, Ledger.zero, [], [], []⟩

inductive Call
  | generate (config : WorldConfig) (seed : UInt64) (content : ContentManifest)
      (out : Option StructHeader)
  | load (bytes : List UInt8)
  | createWorld (replay : Nat)
  | step (world : Nat) (decision : JointDecision) (out : StructHeader)
  | advance (replay world : Nat) (decisions : UInt64) (out : ReplayStatus)
  | buildReplay (world : Nat) (decisions : List JointDecision) (capacity : Nat)
  | openReplay (bytes : List UInt8)
  | createSnapshot (world : Nat) (scope : UInt32) (viewer : FdEntityId)
  | destroyWorld (world : Nat)
  | destroySnapshot (snapshot : Nat)
  | destroyReplay (replay : Nat)
  | destroyContext

def nullHandle (message : String) : Fail := fdDiagSet fdErrInvalidArgument fdFieldNone 0 message

namespace Session

/-- A call that publishes a world on success. -/
def publishWorld (s : Session) (created : StateM Ledger (Except Fail World)) :
    Session × Except Fail Unit :=
  match created s.ledger with
  | (.error failure, ledger) => ({ s with ledger := ledger }, .error failure)
  | (.ok world, ledger) =>
      ({ s with ledger := ledger, worlds := s.worlds ++ [.created world] }, .ok ())

def stepCall (s : Session) (index : Nat) (live : LiveWorld) (decision : JointDecision)
    (out : StructHeader) : Session × Except Fail Unit :=
  match fdWorldStep live.world decision out with
  | (world, .error failure) =>
      ({ s with worlds := s.worlds.set index { live with world := world } }, .error failure)
  | (world, .ok _) =>
      let live := { live with world := world, accepted := live.accepted ++ [decision] }
      ({ s with worlds := s.worlds.set index live }, .ok ())

/-- The decisions an advance has played. -/
def played (replay : Replay) (advanced : Advanced) : List JointDecision :=
  ((replay.records.drop replay.cursor).take
    (advanced.replay.cursor - replay.cursor)).map ReplayRecord.decision

def advanceCall (context : FdContext) (s : Session) (replayIndex worldIndex : Nat)
    (replay : Replay) (live : LiveWorld) (decisions : UInt64) (out : ReplayStatus) :
    Session × Except Fail Unit :=
  let (advanced, ledger) :=
    fdReplayAdvance context replay live.world decisions out true s.ledger
  let live := { live with
    world := advanced.world
    accepted := live.accepted ++ played replay advanced }
  ({ s with
      ledger := ledger
      replays := s.replays.set replayIndex advanced.replay
      worlds := s.worlds.set worldIndex live }, advanced.result)

/-- A call that owns nothing afterwards. -/
def probe {α : Type} (s : Session) (call : StateM Ledger (Except Fail α)) :
    Session × Except Fail Unit :=
  let (result, ledger) := call s.ledger
  ({ s with ledger := ledger }, result.map fun _ => ())

def openCall (context : FdContext) (s : Session) (bytes : List UInt8) :
    Session × Except Fail Unit :=
  match fdReplayOpen context bytes s.ledger with
  | (.error failure, ledger) => ({ s with ledger := ledger }, .error failure)
  | (.ok replay, ledger) => ({ s with ledger := ledger, replays := s.replays ++ [replay] }, .ok ())

def snapshotCall (context : FdContext) (s : Session) (world : World) (scope : UInt32)
    (viewer : FdEntityId) : Session × Except Fail Unit :=
  match fdSnapshotCreate context world scope viewer s.ledger with
  | (.error failure, ledger) => ({ s with ledger := ledger }, .error failure)
  | (.ok snapshot, ledger) =>
      ({ s with ledger := ledger, snapshots := s.snapshots ++ [snapshot] }, .ok ())

/-- Only the creating calls take the context itself. -/
def withContext (s : Session) (message : String) (call : Session × Except Fail Unit) :
    Session × Except Fail Unit :=
  if s.opened then call else (s, .error (nullHandle message))

def call (context : FdContext) (s : Session) : Call → Session × Except Fail Unit
  | .generate config seed content out => s.withContext "context is null" <|
      s.publishWorld (Prod.snd <$> fdWorldGenerate context config seed content out)
  | .load bytes => s.withContext "context or save bytes are null" <|
      s.publishWorld (fdWorldLoad context bytes)
  | .createWorld replay =>
      match s.replays[replay]? with
      | none => (s, .error (nullHandle "replay is null"))
      | some replay => s.publishWorld (fdReplayCreateWorld context replay)
  | .step world decision out =>
      match s.worlds[world]? with
      | none => (s, .error (nullHandle "world or joint decision is null"))
      | some live => s.stepCall world live decision out
  | .advance replay world decisions out =>
      match s.replays[replay]?, s.worlds[world]? with
      | some r, some live => advanceCall context s replay world r live decisions out
      | _, _ => (s, .error (nullHandle "replay or world is null"))
  | .buildReplay world decisions capacity =>
      match s.worlds[world]? with
      | none => (s, .error (nullHandle "invalid replay build size input"))
      | some live => s.probe (fdReplayBuild context live.world decisions capacity)
  | .openReplay bytes => s.withContext "context or replay bytes are null" <| openCall context s bytes
  | .createSnapshot world scope viewer =>
      match s.worlds[world]? with
      | none => (s, .error (nullHandle "world is null"))
      | some live => snapshotCall context s live.world scope viewer
  | .destroyWorld world =>
      match s.worlds[world]? with
      | none => (s, .ok ())
      | some live =>
          ({ s with
              ledger := (fdWorldDestroy live.world s.ledger).2
              worlds := s.worlds.eraseIdx world }, .ok ())
  | .destroySnapshot snapshot =>
      match s.snapshots[snapshot]? with
      | none => (s, .ok ())
      | some taken =>
          ({ s with
              ledger := (fdSnapshotDestroy taken s.ledger).2
              snapshots := s.snapshots.eraseIdx snapshot }, .ok ())
  | .destroyReplay replay =>
      match s.replays[replay]? with
      | none => (s, .ok ())
      | some opened =>
          ({ s with
              ledger := (fdReplayDestroy opened s.ledger).2
              replays := s.replays.eraseIdx replay }, .ok ())
  | .destroyContext =>
      if s.opened then
        match fdContextDestroy s.ledger with
        | .error failure => (s, .error failure)
        | .ok () => ({ s with opened := false }, .ok ())
      else (s, .ok ())

/-- The session after a list of calls. -/
def run (context : FdContext) (s : Session) (calls : List Call) : Session :=
  calls.foldl (fun s c => (s.call context c).1) s

@[simp] theorem run_nil (context : FdContext) (s : Session) : s.run context [] = s := rfl

@[simp] theorem run_cons (context : FdContext) (s : Session) (c : Call) (calls : List Call) :
    s.run context (c :: calls) = (s.call context c).1.run context calls := rfl

end Session

end FrontierDirectorate
