import Mathlib
import FrontierDirectorate.Terminal.Handles
import FrontierDirectorate.Terminal.Screen

/-!
# Audit screens

`render_replay_inspector_ascii` and `render_message_log_ascii` of
`ascii_renderer.cpp`. Both show the attempts of a replay; the inspector looks one
up, the log merges the audits and the records from a position on.
-/
namespace FrontierDirectorate.Terminal
open Checks

def totalAttempts (info : ReplayInfo) : UInt64 := info.decisionCount + info.auditCount.toUInt64

/-- The text of an audit, at most 160 bytes of it. -/
def auditMessage (audit : ReplayAuditView) : Text :=
  asciiText (audit.message.take (min audit.messageLength.toNat 160))

section inspector

/-- What the inspector shows for one attempt. -/
inductive Entry
  | rejected (audit : ReplayAuditView)
  | accepted (record : ReplayRecordView)
deriving DecidableEq

/-- The scan over the audits: `remaining` of them from the one numbered `index` on. The audit of
the attempt, or the number of audits before it. -/
def findRejected (replay : ReplayHandle) (attemptIndex : UInt64) :
    (remaining : Nat) → (index : UInt32) → Except Fail (Option ReplayAuditView × UInt32)
  | 0, index => .ok (none, index)
  | remaining + 1, index => do
      let audit ← replay.audit index
      if audit.attemptIndex = attemptIndex then .ok (some audit, index)
      else if attemptIndex < audit.attemptIndex then .ok (none, index)
      else findRejected replay attemptIndex remaining (index + 1)

/-- The audit or the record of an attempt. -/
def inspectorEntry (replay : ReplayHandle) (info : ReplayInfo) (attemptIndex : UInt64) :
    Except Fail Entry := do
  let (rejected, rejectedBefore) ← findRejected replay attemptIndex info.auditCount.toNat 0
  match rejected with
  | some audit => .ok (.rejected audit)
  | none =>
      let record ← replay.record (attemptIndex - rejectedBefore.toUInt64)
      .ok (.accepted record)

/-- The actor and the action of a seat; `note` stands after the category. -/
def seatLine (decision : JointDecision) (seat : Fin 2) (note : String) : Text :=
  asciiBytes "Seat " ++ decimal seat.val ++ asciiBytes " actor #" ++
    decimal (decision.seats.get seat).actorId.toNat ++ asciiBytes " | category " ++
    decimal (decision.seats.get seat).action.category.toNat ++ asciiBytes note ++
    asciiBytes " | parameters=" ++ decimal (decision.seats.get seat).action.parameterCount.toNat

def rejectedContent (info : ReplayInfo) (attemptIndex : UInt64) (rejected : ReplayAuditView) :
    List Text :=
  [asciiBytes "FRONTIER DIRECTORATE | REPLAY INSPECTOR | REJECTED ACTION ATTEMPT",
    asciiBytes "Attempt " ++ decimal attemptIndex.toNat ++ asciiBytes " of " ++
      decimal (totalAttempts info).toNat ++ asciiBytes " | accepted " ++
      decimal info.decisionCount.toNat ++ asciiBytes " | rejected " ++
      decimal info.auditCount.toNat ++ asciiBytes " | cursor " ++ decimal info.cursor.toNat,
    asciiBytes "Tick: " ++ decimal rejected.tick.toNat ++ asciiBytes " | result code " ++
      decimal rejected.result.toNat,
    asciiBytes "Diagnostic: field=" ++ decimal rejected.fieldId.toNat ++ asciiBytes " item=" ++
      decimal rejected.itemIndex.toNat,
    asciiBytes "Diagnostic text: " ++ auditMessage rejected,
    asciiBytes "Expected tick: " ++ decimal rejected.decision.expectedTick.toNat,
    asciiBytes "Expected pre-state [00..15]: " ++
      hexPrefix rejected.decision.expectedPreStateSha256.toList 16,
    asciiBytes "Expected pre-state [16..31]: " ++
      hexPrefix (rejected.decision.expectedPreStateSha256.toList.drop 16) 16,
    seatLine rejected.decision 0 "",
    seatLine rejected.decision 1 ""]

def acceptedContent (info : ReplayInfo) (attemptIndex : UInt64) (record : ReplayRecordView) :
    List Text :=
  [asciiBytes "FRONTIER DIRECTORATE | REPLAY INSPECTOR | VERIFIED ACCEPTED DECISION",
    asciiBytes "Attempt " ++ decimal attemptIndex.toNat ++ asciiBytes " of " ++
      decimal (totalAttempts info).toNat ++ asciiBytes " | accepted record " ++
      decimal record.decisionIndex.toNat ++ asciiBytes " | replay cursor " ++
      decimal info.cursor.toNat,
    asciiBytes "Tick: " ++ decimal record.tickBefore.toNat ++ asciiBytes " -> " ++
      decimal record.tickAfter.toNat ++ asciiBytes " | expected " ++
      decimal record.decision.expectedTick.toNat,
    seatLine record.decision 0 " (PASS=1)",
    seatLine record.decision 1 " (PASS=1)",
    asciiBytes "RNG domain trace entries: " ++ decimal record.rngDomainCount.toNat,
    asciiBytes "Pre-state [00..15]:  " ++ hexPrefix record.preStateSha256.toList 16,
    asciiBytes "Pre-state [16..31]:  " ++ hexPrefix (record.preStateSha256.toList.drop 16) 16,
    asciiBytes "Post-state [00..15]: " ++ hexPrefix record.postStateSha256.toList 16,
    asciiBytes "Post-state [16..31]: " ++ hexPrefix (record.postStateSha256.toList.drop 16) 16,
    asciiBytes "Event hash [00..15]: " ++ hexPrefix record.eventSha256.toList 16,
    asciiBytes "Event hash [16..31]: " ++ hexPrefix (record.eventSha256.toList.drop 16) 16]

def entryContent (info : ReplayInfo) (attemptIndex : UInt64) : Entry → List Text
  | .rejected audit => rejectedContent info attemptIndex audit
  | .accepted record => acceptedContent info attemptIndex record

def inspectorFooter (options : RenderOptions) : List Text :=
  [asciiBytes "Columns: actions/hashes/diagnostics are immutable public C replay values",
    footerMessage options,
    asciiBytes "Keys: ? help q quit PgUp/PgDn attempt messages local"]

def emptyInspectorFooter (options : RenderOptions) : List Text :=
  [asciiBytes "Columns: empty state is authoritative public C replay metadata",
    footerMessage options,
    asciiBytes "Keys: ? help q quit messages local strategic pass"]

def emptyInspectorContent (info : ReplayInfo) : List Text :=
  [asciiBytes "FRONTIER DIRECTORATE | REPLAY INSPECTOR | EMPTY ACTION AUDIT",
    asciiBytes "Accepted: 0 | Rejected: 0 | replay cursor " ++ decimal info.cursor.toNat,
    asciiBytes "No action attempts are recorded in this replay.",
    asciiBytes "Tick-zero state [00..15]: " ++ hexPrefix info.tickZeroStateSha256.toList 16,
    asciiBytes "Tick-zero state [16..31]: " ++
      hexPrefix (info.tickZeroStateSha256.toList.drop 16) 16]

def inspectorLines (replay : ReplayHandle) (attemptIndex : UInt64) (options : RenderOptions) :
    Except Fail (List Text) := do
  let info ← replay.info
  let outside := renderError fdErrOutOfRange "replay attempt index is outside the audit"
  if totalAttempts info = 0 then
    failIf (attemptIndex ≠ 0) outside
    .ok (footed (emptyInspectorContent info) (emptyInspectorFooter options) options.rows)
  else
    failIf (totalAttempts info ≤ attemptIndex) outside
    let entry ← inspectorEntry replay info attemptIndex
    .ok (footed (entryContent info attemptIndex entry) (inspectorFooter options) options.rows)

def renderReplayInspectorAscii (replay : ReplayHandle) (attemptIndex : UInt64)
    (options : RenderOptions) : Except Fail Text :=
  renderSized options do
    let lines ← inspectorLines replay attemptIndex options
    .ok (finalize lines options.columns options.rows)

end inspector

section messageLog

def rejectLine (attemptIndex : UInt64) (audit : ReplayAuditView) : Text :=
  asciiBytes "#" ++ decimal attemptIndex.toNat ++ asciiBytes " | tick " ++
    decimal audit.tick.toNat ++ asciiBytes " | REJECT code=" ++ decimal audit.result.toNat ++
    asciiBytes " field=" ++ decimal audit.fieldId.toNat ++ asciiBytes " item=" ++
    decimal audit.itemIndex.toNat ++ asciiBytes " | " ++ auditMessage audit

def actionText (category : UInt32) : Text :=
  if category = fdActionPass then asciiBytes "PASS"
  else asciiBytes "category-" ++ decimal category.toNat

def acceptLine (attemptIndex : UInt64) (record : ReplayRecordView) : Text :=
  asciiBytes "#" ++ decimal attemptIndex.toNat ++ asciiBytes " | " ++
    decimal record.tickBefore.toNat ++ asciiBytes "->" ++ decimal record.tickAfter.toNat ++
    asciiBytes " | " ++ actionText (record.decision.seats.get 0).action.category ++
    asciiBytes " | " ++ actionText (record.decision.seats.get 1).action.category ++
    asciiBytes " | " ++ hexPrefix record.postStateSha256.toList 6

/-- The two cursors of the merge; `current` is the audit at `auditIndex`, if there is one. -/
structure LogCursor where
  auditIndex : UInt32
  current : Option ReplayAuditView
  acceptedIndex : UInt64

/-- The audit at a position, if there is one. -/
def currentAudit (replay : ReplayHandle) (info : ReplayInfo) (auditIndex : UInt32) :
    Except Fail (Option ReplayAuditView) :=
  if auditIndex < info.auditCount then do
    let audit ← replay.audit auditIndex
    .ok (some audit)
  else .ok none

/-- Skips the audits before the first attempt shown; `remaining` counts those from `auditIndex`. -/
def skipAudits (replay : ReplayHandle) (info : ReplayInfo) (firstRecord : UInt64) :
    (remaining : Nat) → (auditIndex : UInt32) → Except Fail (UInt32 × Option ReplayAuditView)
  | 0, auditIndex => .ok (auditIndex, none)
  | remaining + 1, auditIndex => do
      let current ← currentAudit replay info auditIndex
      match current with
      | none => .ok (auditIndex, none)
      | some audit =>
          if audit.attemptIndex < firstRecord then
            skipAudits replay info firstRecord remaining (auditIndex + 1)
          else .ok (auditIndex, some audit)

def logRecord (replay : ReplayHandle) (attemptIndex : UInt64) (s : LogCursor) :
    Except Fail (Text × LogCursor) := do
  let record ← replay.record s.acceptedIndex
  .ok (acceptLine attemptIndex record, { s with acceptedIndex := s.acceptedIndex + 1 })

/-- The line of an attempt, and the cursors after it. -/
def logAttempt (replay : ReplayHandle) (info : ReplayInfo) (attemptIndex : UInt64)
    (s : LogCursor) : Except Fail (Text × LogCursor) :=
  match s.current with
  | none => logRecord replay attemptIndex s
  | some audit =>
      if audit.attemptIndex = attemptIndex then do
        let auditIndex := s.auditIndex + 1
        let current ← currentAudit replay info auditIndex
        .ok (rejectLine attemptIndex audit, { s with auditIndex := auditIndex, current := current })
      else do
        failIf (audit.attemptIndex < attemptIndex)
          (renderError fdErrState "replay audit attempts are not ordered")
        logRecord replay attemptIndex s

/-- Whether a line is listed. -/
def matchesFilter (asciiFilter line : Text) : Prop := asciiFilter = [] ∨ asciiFilter <:+: line

instance (asciiFilter line : Text) : Decidable (matchesFilter asciiFilter line) :=
  inferInstanceAs (Decidable (_ ∨ _))

/-- The lines of the log: `attempts` are left from `attemptIndex` on, and `room` more lines fit. -/
def logAttempts (replay : ReplayHandle) (info : ReplayInfo) (asciiFilter : Text) :
    (attempts room : Nat) → (attemptIndex : UInt64) → LogCursor → Except Fail (List Text)
  | 0, _, _, _ => .ok []
  | _ + 1, 0, _, _ => .ok []
  | attempts + 1, room + 1, attemptIndex, s => do
      let (line, s) ← logAttempt replay info attemptIndex s
      if matchesFilter asciiFilter line then
        let lines ← logAttempts replay info asciiFilter attempts room (attemptIndex + 1) s
        .ok (line :: lines)
      else logAttempts replay info asciiFilter attempts (room + 1) (attemptIndex + 1) s

/-- The attempts listed by a log that starts at `firstRecord` and has `room` lines. -/
def listedAttempts (replay : ReplayHandle) (info : ReplayInfo) (firstRecord : UInt64)
    (asciiFilter : Text) (room : Nat) : Except Fail (List Text) := do
  let (auditIndex, current) ← skipAudits replay info firstRecord info.auditCount.toNat 0
  logAttempts replay info asciiFilter
    ((totalAttempts info).toNat - firstRecord.toNat) room firstRecord
    ⟨auditIndex, current, firstRecord - auditIndex.toUInt64⟩

def logHeading (info : ReplayInfo) (firstRecord : UInt64) : List Text :=
  [asciiBytes "FRONTIER DIRECTORATE | MESSAGE LOG | ACTION ACCEPT/REJECT AUDIT",
    asciiBytes "Accepted: " ++ decimal info.decisionCount.toNat ++ asciiBytes " | Rejected: " ++
      decimal info.auditCount.toNat ++ asciiBytes " | First displayed: " ++
      decimal firstRecord.toNat ++ asciiBytes " | Cursor: " ++ decimal info.cursor.toNat,
    asciiBytes "+-- ATTEMPT -- RESULT / TICK / STRUCTURED DIAGNOSTIC ----------------+"]

/-- What the log says when it lists nothing. -/
def logNotice (info : ReplayInfo) (asciiFilter : Text) (listed : List Text) : List Text :=
  if totalAttempts info = 0 then
    [asciiBytes "No action attempts are recorded in this replay."]
  else if listed = [] then [asciiBytes "No action audit records match filter: " ++ asciiFilter]
  else []

def logFooter (options : RenderOptions) : List Text :=
  [asciiBytes "+----------------------------------------------------------------+",
    asciiBytes "Legend: PASS=accepted; REJECT preserves code/field/item/message",
    footerMessage options,
    asciiBytes "Keys: ? help q quit PgUp/PgDn scroll /text replay local"]

def logLines (replay : ReplayHandle) (firstRecord : UInt64) (options : RenderOptions)
    (filter : Text) : Except Fail (List Text) := do
  let info ← replay.info
  failIf (totalAttempts info < firstRecord)
    (renderError fdErrOutOfRange "message log first record is outside replay")
  let heading := logHeading info firstRecord
  let maximumRecords := options.rows.toNat - heading.length - (logFooter options).length
  let asciiFilter := asciiText filter
  let listed ← listedAttempts replay info firstRecord asciiFilter maximumRecords
  .ok (footed (heading ++ listed ++ logNotice info asciiFilter listed) (logFooter options)
    options.rows)

def renderMessageLogAscii (replay : ReplayHandle) (firstRecord : UInt64) (options : RenderOptions)
    (filter : Text) : Except Fail Text :=
  renderSized options do
    let lines ← logLines replay firstRecord options filter
    .ok (finalize lines options.columns options.rows)

end messageLog

end FrontierDirectorate.Terminal
