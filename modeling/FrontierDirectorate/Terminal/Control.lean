import Mathlib
import FrontierDirectorate.Terminal.Screen

/-!
# Control model

`control_model.hpp`: the state behind the interactive screens and the commands that
change it. The functions take the subtraction of words they are computed with.
-/
namespace FrontierDirectorate.Terminal

inductive TerminalView
  | localMap
  | strategic
  | messages
  | replayInspector
  | debugHash
  | help
deriving DecidableEq, Repr

inductive ControlKind
  | moveUp
  | moveDown
  | moveLeft
  | moveRight
  | cyclePane
  | inspect
  | cancel
  | toggleMap
  | scaleDown
  | scaleUp
  | pageUp
  | pageDown
  | setFilter
  | toggleHelp
  | quit
  | pass
  | showLocal
  | showStrategic
  | showMessages
  | showReplay
  | showHash
deriving DecidableEq, Repr

structure ControlCommand where
  kind : ControlKind
  text : Text
deriving DecidableEq

structure ControlState where
  render : RenderOptions
  view : TerminalView
  beforeHelp : TerminalView
  worldWidth : UInt32
  worldHeight : UInt32
  pane : UInt32
  scale : UInt32
  auditCount : UInt64
  firstLogRecord : UInt64
  replayRecord : UInt64
  filter : Text
  inspecting : Bool
  running : Bool
deriving DecidableEq

namespace ControlState

def initial : ControlState where
  render := .initial
  view := .localMap
  beforeHelp := .localMap
  worldWidth := 1
  worldHeight := 1
  pane := 0
  scale := 1
  auditCount := 0
  firstLogRecord := 0
  replayRecord := 0
  filter := []
  inspecting := false
  running := true

def say (s : ControlState) (message : Text) : ControlState :=
  { s with render := { s.render with message := message } }

def select (s : ControlState) (x y : UInt32) : ControlState :=
  { s with render := { s.render with selectedX := x, selectedY := y } }

def scroll (s : ControlState) (x y : UInt32) : ControlState :=
  { s with render := { s.render with viewportX := x, viewportY := y } }

end ControlState

section subtraction

variable {m : Type → Type} [Monad m] (sub : Subtraction m)

/-- One axis of `keep_cursor_visible`: the viewport word after it. -/
def keepVisible (selected viewport extent : UInt32) : m UInt32 := do
  if selected < viewport then return selected
  else if extent ≤ (← sub.word selected viewport) then return (← sub.word selected extent) + 1
  else return viewport

def mapExtent (size frame : UInt32) : m UInt32 :=
  if frame < size then sub.word size frame else pure 1

def keepCursorVisibleWith (s : ControlState) : m ControlState := do
  let mapWidth ← mapExtent sub s.render.columns 32
  let mapHeight ← mapExtent sub s.render.rows 9
  let viewportX ← keepVisible sub s.render.selectedX s.render.viewportX mapWidth
  let viewportY ← keepVisible sub s.render.selectedY s.render.viewportY mapHeight
  return s.scroll viewportX viewportY

/-- The selection moved into the world. -/
def clampSelection (s : ControlState) : m ControlState := do
  let x := min s.render.selectedX (← sub.word s.worldWidth 1)
  let y := min s.render.selectedY (← sub.word s.worldHeight 1)
  return s.select x y

/-- One tile towards the origin, if there is one. -/
def cursorBack (selected : UInt32) : m UInt32 :=
  if selected ≠ 0 then sub.word selected 1 else pure selected

/-- The attempt the inspector shows after page-up and after page-down. -/
def inspectorBack (replayRecord : UInt64) : m UInt64 :=
  if replayRecord ≠ 0 then sub.long replayRecord 1 else pure replayRecord

def inspectorForward (auditCount replayRecord : UInt64) : m UInt64 :=
  if auditCount ≠ 0 then do
    let last ← sub.long auditCount 1
    return if replayRecord < last then replayRecord + 1 else replayRecord
  else pure replayRecord

/-- The first attempt of the log after page-up and after page-down. -/
def logBack (firstLogRecord : UInt64) : m UInt64 :=
  if 10 < firstLogRecord then sub.long firstLogRecord 10 else pure 0

def logForward (auditCount firstLogRecord : UInt64) : m UInt64 :=
  if auditCount ≠ 0 then do
    let maximum ← sub.long auditCount 1
    let limit ← sub.long maximum (min maximum 10)
    return if limit < firstLogRecord then maximum else firstLogRecord + 10
  else pure firstLogRecord

def pageUp (s : ControlState) : m ControlState :=
  if s.view = .replayInspector then do
    let replayRecord ← inspectorBack sub s.replayRecord
    return { s with replayRecord := replayRecord }.say
      (asciiBytes "Replay inspector moved back one attempt.")
  else do
    let firstLogRecord ← logBack sub s.firstLogRecord
    return { s with firstLogRecord := firstLogRecord }.say (asciiBytes "Message log scrolled up.")

def pageDown (s : ControlState) : m ControlState :=
  if s.view = .replayInspector then do
    let replayRecord ← inspectorForward sub s.auditCount s.replayRecord
    return { s with replayRecord := replayRecord }.say
      (asciiBytes "Replay inspector moved forward one attempt.")
  else do
    let firstLogRecord ← logForward sub s.auditCount s.firstLogRecord
    return { s with firstLogRecord := firstLogRecord }.say
      (asciiBytes "Message log scrolled down.")

/-- The switch of `apply_control`, without the case of `pass`. -/
def applyKind (s : ControlState) (command : ControlCommand) : m ControlState := do
  let x := s.render.selectedX
  let y := s.render.selectedY
  match command.kind with
  | .moveUp =>
      let y ← cursorBack sub y
      return (s.select x y).say (asciiBytes "Cursor moved up.")
  | .moveDown =>
      let y := if y + 1 < s.worldHeight then y + 1 else y
      return (s.select x y).say (asciiBytes "Cursor moved down.")
  | .moveLeft =>
      let x ← cursorBack sub x
      return (s.select x y).say (asciiBytes "Cursor moved left.")
  | .moveRight =>
      let x := if x + 1 < s.worldWidth then x + 1 else x
      return (s.select x y).say (asciiBytes "Cursor moved right.")
  | .cyclePane =>
      let pane := (s.pane + 1) % 3
      return { s with pane := pane }.say
        (asciiBytes "Pane focus: " ++ decimal (pane + 1).toNat ++ asciiBytes "/3.")
  | .inspect =>
      return { s with inspecting := true }.say
        (asciiBytes "Inspector confirmed at selected coordinate.")
  | .cancel =>
      let view := if s.view = .help then s.beforeHelp else s.view
      return { s with inspecting := false, filter := [], view := view }.say
        (asciiBytes "Pending UI operation cancelled.")
  | .toggleMap =>
      let view := if s.view = .localMap then .strategic else .localMap
      return { s with view := view }.say (asciiBytes "Map scale toggled.")
  | .scaleDown | .scaleUp =>
      return { s with scale := 1 }.say
        (asciiBytes "U01 exposes one local scale; use m for region/tile modes.")
  | .pageUp => pageUp sub s
  | .pageDown => pageDown sub s
  | .setFilter =>
      let message := if command.text = [] then asciiBytes "Message filter cleared."
        else asciiBytes "Message filter: " ++ command.text
      return { s with filter := command.text }.say message
  | .toggleHelp =>
      let view := if s.view = .help then s.beforeHelp else .help
      let beforeHelp := if s.view = .help then s.beforeHelp else s.view
      return { s with beforeHelp := beforeHelp, view := view }.say (asciiBytes "Help toggled.")
  | .quit => return { s with running := false }
  | .pass => return s
  | .showLocal => return { s with view := .localMap }
  | .showStrategic => return { s with view := .strategic }
  | .showMessages => return { s with view := .messages }
  | .showReplay => return { s with view := .replayInspector }
  | .showHash => return { s with view := .debugHash }

/-- `apply_control`: the state after it, and what it returns. -/
def applyControlWith (s : ControlState) (command : ControlCommand) :
    m (ControlState × Except Fail Unit) := do
  if s.worldWidth = 0 ∨ s.worldHeight = 0 then
    return (s, .error (renderError fdErrState "control model requires nonzero world dimensions"))
  else
    let s ← clampSelection sub s
    if command.kind = .pass then
      return (s, .error (renderError fdErrState "PASS must be submitted through the C action binding"))
    else
      let s ← applyKind sub s command
      return (← keepCursorVisibleWith sub s, .ok ())

end subtraction

def applyControl (s : ControlState) (command : ControlCommand) : ControlState × Except Fail Unit :=
  applyControlWith .machine s command

/-- `ensure_audit` of `main.cpp`, once the replay is open: the positions are moved into it. -/
def ensureAudit (s : ControlState) (attempts : UInt64) : ControlState :=
  if attempts = 0 then { s with auditCount := attempts, replayRecord := 0, firstLogRecord := 0 }
  else { s with
    auditCount := attempts
    replayRecord := min s.replayRecord (attempts - 1)
    firstLogRecord := min s.firstLogRecord (attempts - 1) }

/-- The state after a list of commands. -/
def applyControls (s : ControlState) (commands : List ControlCommand) : ControlState :=
  commands.foldl (fun s command => (applyControl s command).1) s

end FrontierDirectorate.Terminal
