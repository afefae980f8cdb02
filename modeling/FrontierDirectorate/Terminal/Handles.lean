import Mathlib
import FrontierDirectorate.Core.Queries

/-!
# C++ handles

`Snapshot` and `Replay` of `fd.cpp`, as far as the screens read them. A handle that
is empty or moved-from is `none`; every query hands in an initialized view.
-/
namespace FrontierDirectorate.Terminal

def wrapperError (code : FdResult) (message : String) : Fail := ⟨code, fdFieldNone, 0, message⟩

abbrev SnapshotHandle := Option Snapshot

namespace SnapshotHandle

/-- The snapshot behind the handle. -/
def native (handle : SnapshotHandle) : Except Fail Snapshot :=
  match handle with
  | none => .error (wrapperError fdErrState "snapshot is empty or moved-from")
  | some snapshot => .ok snapshot

def info (handle : SnapshotHandle) : Except Fail WorldInfo := do
  fdSnapshotGetInfo (← handle.native) (initializeOutput sizeofFdWorldInfo)

def tile (handle : SnapshotHandle) (x y : UInt32) : Except Fail TileView := do
  fdSnapshotGetTile (← handle.native) x y (initializeOutput sizeofFdTileView)

def entityByIndex (handle : SnapshotHandle) (index : UInt32) : Except Fail EntityView := do
  fdSnapshotGetEntityByIndex (← handle.native) index (initializeOutput sizeofFdEntityView)

def region (handle : SnapshotHandle) : Except Fail RegionView := do
  fdSnapshotGetRegion (← handle.native) (initializeOutput sizeofFdRegionView)

end SnapshotHandle

abbrev ReplayHandle := Option Replay

namespace ReplayHandle

/-- The replay behind the handle. -/
def native (handle : ReplayHandle) : Except Fail Replay :=
  match handle with
  | none => .error (wrapperError fdErrState "replay is empty or moved-from")
  | some replay => .ok replay

def info (handle : ReplayHandle) : Except Fail ReplayInfo := do
  fdReplayGetInfo (← handle.native) (initializeOutput sizeofFdReplayInfo)

def record (handle : ReplayHandle) (index : UInt64) : Except Fail ReplayRecordView := do
  fdReplayGetRecord (← handle.native) index (initializeOutput sizeofFdReplayRecordView)

def audit (handle : ReplayHandle) (index : UInt32) : Except Fail ReplayAuditView := do
  fdReplayGetAudit (← handle.native) index (initializeOutput sizeofFdReplayAuditView)

end ReplayHandle

end FrontierDirectorate.Terminal
