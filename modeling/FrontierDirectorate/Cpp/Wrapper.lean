import Mathlib
import FrontierDirectorate.Core.ActionMask
import FrontierDirectorate.Core.Queries
import FrontierDirectorate.Lib.Unwinding

/-!
# The C++ wrapper

`Context`, `World`, `Snapshot` and `Replay` of `fd.cpp`. A program holds objects of
these classes and calls them in any order; an object is a position in a list, and any
other position is an object that is empty or moved-from. A replay that belongs to
another context is passed as it is. Every allocation of the wrapper itself may throw.
-/
namespace FrontierDirectorate.Cpp
open Unwinding

/-- What an allocation throws. -/
inductive Thrown
  | badAlloc
  | lengthError
deriving DecidableEq, Repr

/-- How a computation leaves without returning: by an exception, or because one met a `noexcept`. -/
inductive Unwound
  | thrown (thrown : Thrown)
  | terminate
deriving DecidableEq, Repr

/-- The surroundings. `throws n` is what the `n`-th allocation of the wrapper does, `sizeMax` the
largest `std::size_t` and `maxDecisions` the `max_size()` of a history, which an object of
`PTRDIFF_MAX` bytes can hold. -/
structure Host where
  context : FdContext
  throws : Nat → Option Thrown
  sizeMax : Nat
  maxDecisions : Nat
  fits : maxDecisions * sizeofFdJointDecision.toNat < 9223372036854775808

/-- `detail::WorldState`; `capacity` is that of the vector of decisions. -/
structure WorldState where
  world : World
  initialSave : List UInt8
  decisions : List JointDecision
  capacity : Nat

/-- The objects of a program. `context` tells whether the `Context` is there, `released` whether
the shared `ContextState` is gone. -/
structure Program where
  ledger : Ledger
  allocations : Nat
  context : Bool
  released : Bool
  worlds : List WorldState
  snapshots : List Snapshot
  replays : List Replay

abbrev Proc := Unwind Unwound Program

section primitives

variable {α : Type} (host : Host)

/-- An allocation, with what it throws. -/
def attempt : Proc (Option Thrown) := fun p =>
  (.ok (host.throws p.allocations), { p with allocations := p.allocations + 1 })

def allocate : Proc Unit := do
  match ← attempt host with
  | none => return ()
  | some thrown => unwind (.thrown thrown)

/-- A call of the C interface. -/
def native (call : StateM Ledger α) : Proc α := Unwinding.call fun p =>
  ((call p.ledger).1, { p with ledger := (call p.ledger).2 })

def release (destroy : StateM Ledger Unit) : StateM Program Unit := fun p =>
  ((), { p with ledger := (destroy p.ledger).2 })

/-- A scope that owns a C handle; the handle moves out with a result. -/
def owning (destroy : StateM Ledger Unit) (body : Proc (Except Fail α)) : Proc (Except Fail α) :=
  guarded (fun result => result.isOk) (release destroy) body

/-- A scope that owns a C handle to its end. -/
def holding (destroy : StateM Ledger Unit) (body : Proc (Except Fail α)) : Proc (Except Fail α) :=
  guarded (fun _ => false) (release destroy) body

def allocationFailure : Thrown → Fail
  | .badAlloc => ⟨fdErrOutOfMemory, 0, 0, ""⟩
  | .lengthError => ⟨fdErrCapacity, 0, 0, ""⟩

/-- The function-try-block of every entry point. -/
def tryBlock (body : Proc (Except Fail α)) : Proc (Except Fail α) :=
  caught (fun
    | .thrown thrown => some (.error (allocationFailure thrown))
    | .terminate => none) body

/-- The message is built and copied. -/
def wrapperError (code : FdResult) (message : String) : Proc (Except Fail α) := do
  allocate host
  allocate host
  return .error ⟨code, fdFieldNone, 0, message⟩

/-- `noexcept`: without memory the message is left empty. -/
def errorFrom (failure : Fail) : Proc (Except Fail α) := do
  match ← attempt host with
  | none => return .error failure
  | some _ => return .error { failure with message := "" }

/-- The error of another result, copied. -/
def copyError (failure : Fail) : Proc (Except Fail α) := do
  allocate host
  return .error failure

def contextValid : Proc Bool := fun p => (.ok p.context, p)

def worldAt (index : Nat) : Proc (Option WorldState) := fun p => (.ok p.worlds[index]?, p)

def replayAt (index : Nat) : Proc (Option Replay) := fun p => (.ok p.replays[index]?, p)

def setWorld (index : Nat) (state : WorldState) : Proc Unit := fun p =>
  (.ok (), { p with worlds := p.worlds.set index state })

def setReplay (index : Nat) (replay : Replay) : Proc Unit := fun p =>
  (.ok (), { p with replays := p.replays.set index replay })

end primitives

section saving

variable (host : Host)

def saveHandle (world : World) : Proc (Except Fail (List UInt8)) := tryBlock do
  match fdWorldSaveSize host.context world with
  | .error failure => errorFrom host failure
  | .ok required =>
    if host.sizeMax < required then
      wrapperError host fdErrCapacity "save does not fit the C++ address space"
    else
      allocate host
      match fdWorldSave host.context world required with
      | .error failure => errorFrom host failure
      | .ok bytes =>
        if bytes.length ≠ required then
          wrapperError host fdErrInternal "save size changed between measure and write"
        else return .ok bytes

end saving

section history

variable (host : Host)

/-- The doubling loop of `prepare_decisions`, from `next` on. -/
def grownCapacity (maxSize required : Nat) : (fuel next : Nat) → Nat
  | 0, next => next
  | fuel + 1, next =>
    if next < required then
      if maxSize / 2 < next then required else grownCapacity maxSize required fuel (next * 2)
    else next

/-- `prepare_decisions` of the world at `index`, and whether there is room afterwards. -/
def prepareDecisions (index : Nat) (state : WorldState) (additional : Nat) :
    Proc (Bool × WorldState) := do
  if host.maxDecisions - state.decisions.length < additional then return (false, state)
  else
    let required := state.decisions.length + additional
    if state.capacity < required then
      let next := grownCapacity host.maxDecisions required required
        (if state.decisions = [] then 8 else state.capacity)
      if host.maxDecisions < next then return (false, state)
      else
        match ← attempt host with
        | some _ => return (false, state)
        | none =>
          let grown := { state with capacity := next }
          setWorld index grown
          return (true, grown)
    else return (true, state)

/-- `push_back` in a `noexcept` function: it must not have to grow the vector. -/
def appendDecision (index : Nat) (state : WorldState) (decision : JointDecision) :
    Proc WorldState := do
  if state.decisions.length < state.capacity then
    let longer := { state with decisions := state.decisions ++ [decision] }
    setWorld index longer
    return longer
  else
    match ← attempt host with
    | some _ => unwind .terminate
    | none =>
      let longer := { state with
        decisions := state.decisions ++ [decision]
        capacity := max 1 (2 * state.capacity) }
      setWorld index longer
      return longer

def appendDecisions (index : Nat) (state : WorldState) :
    (decisions : List JointDecision) → Proc WorldState
  | [] => return state
  | decision :: rest => do
    let longer ← appendDecision host index state decision
    appendDecisions index longer rest

end history

section context

variable (host : Host)

def emptyContent : ContentManifest := ⟨sizeofFdContentManifest, fdAbiVersion, 0, []⟩

/-- `std::make_shared` of the state that the new object holds. -/
def makeWorld (world : World) (initialSave : List UInt8) : Proc (Except Fail WorldState) := do
  allocate host
  return .ok ⟨world, initialSave, [], 0⟩

/-- A world whose save is its initial one. -/
def adoptWorld (world : World) : Proc (Except Fail WorldState) :=
  owning (fdWorldDestroy world) do
    match ← saveHandle host world with
    | .error failure => copyError host failure
    | .ok initialSave => makeWorld host world initialSave

def generate (config : WorldConfig) (seed : UInt64) (content : Option ContentManifest) :
    Proc (Except Fail WorldState) := tryBlock do
  if !(← contextValid) then wrapperError host fdErrState "context is empty or moved-from"
  else
    let generated ← native (fdWorldGenerate host.context config seed (content.getD emptyContent)
      (some (initializeOutput sizeofFdGenerationReport)))
    match generated.2 with
    | .error failure => errorFrom host failure
    | .ok world => adoptWorld host world

def load (bytes : List UInt8) : Proc (Except Fail WorldState) := tryBlock do
  if !(← contextValid) then wrapperError host fdErrState "context is empty or moved-from"
  else if uint64Max < bytes.length then wrapperError host fdErrCapacity "input is too large"
  else
    match ← native (fdWorldLoad host.context bytes) with
    | .error failure => errorFrom host failure
    | .ok world => owning (fdWorldDestroy world) do
        allocate host
        makeWorld host world bytes

def openReplay (bytes : List UInt8) : Proc (Except Fail Replay) := tryBlock do
  if !(← contextValid) then wrapperError host fdErrState "context is empty or moved-from"
  else if uint64Max < bytes.length then wrapperError host fdErrCapacity "input is too large"
  else
    match ← native (fdReplayOpen host.context bytes) with
    | .error failure => errorFrom host failure
    | .ok replay => owning (fdReplayDestroy replay) do
        allocate host
        return .ok replay

end context

section world

variable (host : Host)

def fdWorldGetInfo (world : World) (out : StructHeader) : Except Fail WorldInfo := do
  requireOutput out sizeofFdWorldInfo "invalid world info output"
  .ok (fdFillWorldInfo world)

/-- A query; its failures come from the C interface. -/
def answered {α : Type} (answer : Except Fail α) : Proc (Except Fail α) := tryBlock do
  match answer with
  | .error failure => errorFrom host failure
  | .ok value => return .ok value

def worldInfo (world : World) : Proc (Except Fail WorldInfo) :=
  answered host (fdWorldGetInfo world (initializeOutput sizeofFdWorldInfo))

def save (index : Nat) : Proc (Except Fail (List UInt8)) := tryBlock do
  match ← worldAt index with
  | none => wrapperError host fdErrState "world is empty or moved-from"
  | some state => saveHandle host state.world

def referenceSnapshot (index : Nat) : Proc (Except Fail Snapshot) := tryBlock do
  match ← worldAt index with
  | none => wrapperError host fdErrState "world is empty or moved-from"
  | some state =>
    match ← native (fdSnapshotCreate host.context state.world fdVisibilityReference 0) with
    | .error failure => errorFrom host failure
    | .ok snapshot => owning (fdSnapshotDestroy snapshot) do
        allocate host
        return .ok snapshot

/-- The action of a seat that passes. -/
def passAction : Action := ⟨sizeofFdAction, fdAbiVersion, fdActionPass, 0, List.Vector.replicate 4 0⟩

/-- The mask handed to the query, with two bytes of its own. -/
def maskBits : ActionMask := ⟨sizeofFdActionMask, fdAbiVersion, 0, 0, 0, 2, some [0, 0]⟩

/-- Whether the bit of the pass is set. -/
def passLegal (mask : ActionMask) : Bool :=
  if mask.firstValue ≤ fdActionPass ∧ fdActionPass - mask.firstValue < mask.bitCount then
    let bit := fdActionPass - mask.firstValue
    let byteIndex := bit / 8
    let bitIndex := bit % 8
    decide (byteIndex < mask.byteCapacity) &&
      decide ((mask.bits.getD []).getD byteIndex.toNat 0 &&& (1 <<< bitIndex.toUInt8) ≠ 0)
  else false

/-- What `step_explicit_pass` asks for one seat. -/
def checkSeat (world : World) (actor : FdEntityId) : Proc (Except Fail Unit) := do
  match fdActionMaskQuery world actor emptyPrefix maskBits with
  | (_, .error failure) => errorFrom host failure
  | (mask, .ok ()) =>
    if !passLegal mask then
      wrapperError host fdErrState "the authoritative legal mask did not contain PASS"
    else
      match fdActionValidate world actor passAction with
      | .error failure => errorFrom host failure
      | .ok () => return .ok ()

def checkSeats (world : World) : (actors : List FdEntityId) → Proc (Except Fail Unit)
  | [] => return .ok ()
  | actor :: rest => do
    match ← checkSeat host world actor with
    | .error failure => return .error failure
    | .ok () => checkSeats world rest

/-- Both seats pass, at the tick and on the state that the world reports. -/
def passDecision (info : WorldInfo) : JointDecision where
  structSize := sizeofFdJointDecision
  abiVersion := fdAbiVersion
  seatCount := fdU01SeatCount
  reserved := 0
  expectedTick := info.tick
  expectedPreStateSha256 := info.stateSha256
  seats := info.foreignFactionIds.map fun actor => ⟨actor, passAction⟩

def stepExplicitPass (index : Nat) : Proc (Except Fail StepResult) := tryBlock do
  match ← worldAt index with
  | none => wrapperError host fdErrState "world is empty or moved-from"
  | some state =>
    let (prepared, state) ← prepareDecisions host index state 1
    if !prepared then
      wrapperError host fdErrOutOfMemory "could not reserve wrapper replay history before stepping"
    else
      match ← worldInfo host state.world with
      | .error failure => copyError host failure
      | .ok info =>
        match ← checkSeats host state.world info.foreignFactionIds.toList with
        | .error failure => return .error failure
        | .ok () =>
          let decision := passDecision info
          match fdWorldStep state.world decision (initializeOutput sizeofFdStepResult) with
          | (world, .error failure) =>
              setWorld index { state with world := world }
              errorFrom host failure
          | (world, .ok output) =>
              let stepped := { state with world := world }
              setWorld index stepped
              let _ ← appendDecision host index stepped decision
              return .ok output

/-- `build_replay` of a span of attempts. -/
def buildReplayOf (state : WorldState) (attempts : List JointDecision) :
    Proc (Except Fail (List UInt8)) := tryBlock do
  match ← native (fdWorldLoad host.context state.initialSave) with
  | .error failure => errorFrom host failure
  | .ok tickZero => holding (fdWorldDestroy tickZero) do
      match ← native (fdReplayBuildSize host.context tickZero attempts) with
      | .error failure => errorFrom host failure
      | .ok required =>
        if host.sizeMax < required then
          wrapperError host fdErrCapacity "replay does not fit the C++ address space"
        else
          allocate host
          match ← native (fdReplayBuild host.context tickZero attempts required) with
          | .error failure => errorFrom host failure
          | .ok bytes =>
            if bytes.length ≠ required then
              wrapperError host fdErrInternal "replay size changed between measure and write"
            else return .ok bytes

/-- Without attempts, of the decisions of the history. -/
def buildReplay (index : Nat) (attempts : Option (List JointDecision)) :
    Proc (Except Fail (List UInt8)) := tryBlock do
  match ← worldAt index with
  | none => wrapperError host fdErrState "world is empty or moved-from"
  | some state => buildReplayOf host state (attempts.getD state.decisions)

end world

section replay

variable (host : Host)

def replayInfo (replay : Replay) : Proc (Except Fail ReplayInfo) :=
  answered host (fdReplayGetInfo replay (initializeOutput sizeofFdReplayInfo))

def replayRecord (replay : Replay) (index : UInt64) : Proc (Except Fail ReplayRecordView) :=
  answered host (fdReplayGetRecord replay index (initializeOutput sizeofFdReplayRecordView))

def createWorld (index : Nat) : Proc (Except Fail WorldState) := tryBlock do
  match ← replayAt index with
  | none => wrapperError host fdErrState "replay is empty or moved-from"
  | some replay =>
    match ← native (fdReplayCreateWorld host.context replay) with
    | .error failure => errorFrom host failure
    | .ok world => adoptWorld host world

/-- The decisions of the next `count` records, from the one numbered `index` on. -/
def prefetch (replay : Replay) : (count : Nat) → (index : UInt64) →
    Proc (Except Fail (List JointDecision))
  | 0, _ => return .ok []
  | count + 1, index => do
    match ← replayRecord host replay index with
    | .error failure => copyError host failure
    | .ok record =>
      match ← prefetch replay count (index + 1) with
      | .error failure => return .error failure
      | .ok rest => return .ok (record.decision :: rest)

/-- The batch vector; an empty one needs no memory. -/
def reserveBatch (count : Nat) : Proc (Option Thrown) :=
  if count = 0 then return none else attempt host

def statusOut : ReplayStatus := ⟨sizeofFdReplayStatus, fdAbiVersion, 0, 0, 0, 0, 0, Digest.zero⟩

/-- The replay goes back to its place in the program; that of another context is not kept here. -/
def keepReplay : (place : Option Nat) → Replay → Proc Unit
  | some index, replay => setReplay index replay
  | none, _ => return ()

/-- The call of the core and the history behind it, once there is room for it. The contexts of the
world and the replay are the same when the replay has a place in the program. -/
def advancePrepared (place : Option Nat) (worldIndex : Nat) (replay : Replay) (state : WorldState)
    (decisions : UInt64) (requested : Nat) (accepted : List JointDecision) :
    Proc (Except Fail ReplayStatus) := do
  let advanced ← native
    (fdReplayAdvance host.context replay state.world decisions statusOut place.isSome)
  keepReplay place advanced.replay
  let moved := { state with world := advanced.world }
  setWorld worldIndex moved
  match advanced.result with
  | .error failure => errorFrom host failure
  | .ok () =>
    if advanced.out.decisionsAdvanced ≠ requested then
      wrapperError host fdErrInternal
        "C replay advanced a different number of records than reported"
    else
      let _ ← appendDecisions host worldIndex moved accepted
      return .ok advanced.out

/-- `Replay::advance` once the number of records to play is known. -/
def advanceBatch (place : Option Nat) (worldIndex : Nat) (replay : Replay) (state : WorldState)
    (decisions cursor requested : UInt64) : Proc (Except Fail ReplayStatus) := do
  match ← reserveBatch host requested.toNat with
  | some .badAlloc =>
    wrapperError host fdErrOutOfMemory "could not reserve replay batch before advancing"
  | some .lengthError => wrapperError host fdErrCapacity "replay batch exceeds vector bounds"
  | none =>
    match ← prefetch host replay requested.toNat cursor with
    | .error failure => return .error failure
    | .ok accepted =>
      let (prepared, state) ← prepareDecisions host worldIndex state requested.toNat
      if !prepared then
        wrapperError host fdErrOutOfMemory "could not reserve world replay history before advancing"
      else advancePrepared host place worldIndex replay state decisions requested.toNat accepted

/-- `Replay::advance` of a replay and a world that are both valid. -/
def advanceValid (place : Option Nat) (worldIndex : Nat) (replay : Replay) (state : WorldState)
    (decisions : UInt64) : Proc (Except Fail ReplayStatus) := do
  match ← replayInfo host replay with
  | .error failure => copyError host failure
  | .ok info =>
    if info.decisionCount < info.cursor then
      wrapperError host fdErrState "replay cursor exceeds its decision count"
    else
      let requested := min decisions (info.decisionCount - info.cursor)
      if host.sizeMax < requested.toNat then
        wrapperError host fdErrCapacity "replay batch does not fit C++ history storage"
      else advanceBatch host place worldIndex replay state decisions info.cursor requested

def advance (replayIndex worldIndex : Nat) (decisions : UInt64) :
    Proc (Except Fail ReplayStatus) := tryBlock do
  match ← replayAt replayIndex, ← worldAt worldIndex with
  | some replay, some state =>
    advanceValid host (some replayIndex) worldIndex replay state decisions
  | _, _ => wrapperError host fdErrState "replay and world must both be valid"

/-- `Replay::advance` of a replay that belongs to another context. -/
def advanceForeign (replay : Replay) (worldIndex : Nat) (decisions : UInt64) :
    Proc (Except Fail ReplayStatus) := tryBlock do
  match ← worldAt worldIndex with
  | some state => advanceValid host none worldIndex replay state decisions
  | none => wrapperError host fdErrState "replay and world must both be valid"

end replay

inductive Call
  | generate (config : WorldConfig) (seed : UInt64) (content : Option ContentManifest)
  | load (bytes : List UInt8)
  | openReplay (bytes : List UInt8)
  | createWorld (replay : Nat)
  | referenceSnapshot (world : Nat)
  | save (world : Nat)
  | stepExplicitPass (world : Nat)
  | buildReplay (world : Nat) (attempts : Option (List JointDecision))
  | advance (replay world : Nat) (decisions : UInt64)
  | advanceForeign (replay : Replay) (world : Nat) (decisions : UInt64)
  | dropContext
  | dropWorld (world : Nat)
  | dropSnapshot (snapshot : Nat)
  | dropReplay (replay : Nat)

namespace Program

/-- Right after `Context::create`. -/
def start : Program := ⟨Ledger.zero, 0, true, false, [], [], []⟩

/-- How many objects share the `ContextState`. -/
def references (p : Program) : Nat :=
  (if p.context then 1 else 0) + p.worlds.length + p.snapshots.length + p.replays.length

/-- The last reference destroys the C context, which refuses while it is busy. -/
def dropReference (p : Program) : Program :=
  if p.references = 0 then
    match fdContextDestroy p.ledger with
    | .ok () => { p with released := true }
    | .error _ => p
  else p

/-- A call and what becomes of its value; `none` when the program does not survive it. -/
def perform {α : Type} (body : Proc (Except Fail α)) (keep : α → Program → Program) (p : Program) :
    Option (Program × Except Fail Unit) :=
  match body p with
  | (.ok (.ok value), p) => some (keep value p, .ok ())
  | (.ok (.error failure), p) => some (p, .error failure)
  | (.error _, _) => none

def addWorld (state : WorldState) (p : Program) : Program := { p with worlds := p.worlds ++ [state] }

def addSnapshot (snapshot : Snapshot) (p : Program) : Program :=
  { p with snapshots := p.snapshots ++ [snapshot] }

def addReplay (replay : Replay) (p : Program) : Program := { p with replays := p.replays ++ [replay] }

/-- A destructor: the C handle first, the reference to the context after it. -/
def dropWorld (index : Nat) (p : Program) : Program :=
  match p.worlds[index]? with
  | none => p
  | some state => dropReference { p with
      ledger := (fdWorldDestroy state.world p.ledger).2
      worlds := p.worlds.eraseIdx index }

def dropSnapshot (index : Nat) (p : Program) : Program :=
  match p.snapshots[index]? with
  | none => p
  | some snapshot => dropReference { p with
      ledger := (fdSnapshotDestroy snapshot p.ledger).2
      snapshots := p.snapshots.eraseIdx index }

def dropReplay (index : Nat) (p : Program) : Program :=
  match p.replays[index]? with
  | none => p
  | some replay => dropReference { p with
      ledger := (fdReplayDestroy replay p.ledger).2
      replays := p.replays.eraseIdx index }

def dropContext (p : Program) : Program :=
  if p.context then dropReference { p with context := false } else p

def call (host : Host) (p : Program) : Call → Option (Program × Except Fail Unit)
  | .generate config seed content => p.perform (Cpp.generate host config seed content) addWorld
  | .load bytes => p.perform (Cpp.load host bytes) addWorld
  | .openReplay bytes => p.perform (Cpp.openReplay host bytes) addReplay
  | .createWorld replay => p.perform (Cpp.createWorld host replay) addWorld
  | .referenceSnapshot world => p.perform (Cpp.referenceSnapshot host world) addSnapshot
  | .save world => p.perform (Cpp.save host world) fun _ p => p
  | .stepExplicitPass world => p.perform (Cpp.stepExplicitPass host world) fun _ p => p
  | .buildReplay world attempts => p.perform (Cpp.buildReplay host world attempts) fun _ p => p
  | .advance replay world decisions =>
      p.perform (Cpp.advance host replay world decisions) fun _ p => p
  | .advanceForeign replay world decisions =>
      p.perform (Cpp.advanceForeign host replay world decisions) fun _ p => p
  | .dropContext => some (p.dropContext, .ok ())
  | .dropWorld world => some (p.dropWorld world, .ok ())
  | .dropSnapshot snapshot => some (p.dropSnapshot snapshot, .ok ())
  | .dropReplay replay => some (p.dropReplay replay, .ok ())

/-- The program after a list of calls, if it survives them. -/
def run (host : Host) (p : Program) : (calls : List Call) → Option Program
  | [] => some p
  | c :: calls => (p.call host c).bind fun r => run host r.1 calls

end Program

end FrontierDirectorate.Cpp
