import Mathlib
import FrontierDirectorate.Lib.Checks
import FrontierDirectorate.Terminal.Text

/-!
# Screens

What every screen of `ascii_renderer.cpp` shares: the options, the checks on the
dimensions, the notice for small terminals and the message line.
-/
namespace FrontierDirectorate.Terminal
open Checks

abbrev kMinimumColumns : UInt32 := 80
abbrev kMinimumRows : UInt32 := 24
abbrev kMaximumColumns : UInt32 := 512
abbrev kMaximumRows : UInt32 := 256
abbrev kInspectorWidth : UInt32 := 24
abbrev kMapPrefixWidth : UInt32 := 4

/-- How unsigned words are subtracted. -/
structure Subtraction (m : Type → Type) where
  word : UInt32 → UInt32 → m UInt32
  long : UInt64 → UInt64 → m UInt64

/-- Subtraction of the machine, which wraps. -/
def Subtraction.machine : Subtraction Id where
  word a b := a - b
  long a b := a - b

/-- Subtraction that stops where the machine would wrap. -/
def Subtraction.checked : Subtraction Option where
  word a b := if b ≤ a then some (a - b) else none
  long a b := if b ≤ a then some (a - b) else none

inductive ScreenMode
  | localMap
  | strategic
deriving DecidableEq, Repr

structure RenderOptions where
  columns : UInt32
  rows : UInt32
  viewportX : UInt32
  viewportY : UInt32
  selectedX : UInt32
  selectedY : UInt32
  mode : ScreenMode
  message : Text
deriving DecidableEq

/-- The message of options nobody has changed. -/
def readyMessage : Text := asciiBytes "Ready. Simulation is paused; no action submitted."

def RenderOptions.initial : RenderOptions := ⟨80, 24, 0, 0, 0, 0, .localMap, readyMessage⟩

def renderError (code : FdResult) (message : String) : Fail := ⟨code, fdFieldNone, 0, message⟩

def footerMessage (options : RenderOptions) : Text :=
  asciiBytes "Message: " ++ asciiText options.message

def sizeNoticeLines (options : RenderOptions) : List Text :=
  [asciiBytes "FRONTIER DIRECTORATE | TERMINAL SIZE NOTICE | ADMIN/OMNISCIENT REFERENCE",
    asciiBytes "Minimum supported terminal: 80x24",
    asciiBytes "Requested terminal: " ++ decimal options.columns.toNat ++ asciiBytes "x" ++
      decimal options.rows.toNat,
    asciiBytes "Simulation state was not mutated or discarded.",
    asciiBytes "Resize and render again. Keys: ?=help q=quit"]

def renderSizeNotice (options : RenderOptions) : Except Fail Text :=
  .ok (finalize (sizeNoticeLines options) options.columns options.rows)

/-- The first checks of every screen; `screen` is what follows them. -/
def renderSized (options : RenderOptions) (screen : Except Fail Text) : Except Fail Text := do
  failIf (options.columns = 0 ∨ options.rows = 0)
    (renderError fdErrOutOfRange "terminal columns and rows must be nonzero")
  failIf (kMaximumColumns < options.columns ∨ kMaximumRows < options.rows)
    (renderError fdErrCapacity "terminal dimensions exceed renderer bounds")
  if options.columns < kMinimumColumns ∨ options.rows < kMinimumRows then renderSizeNotice options
  else screen

/-- The lines in front of the footer, blank lines, and the footer. -/
def footed (content footer : List Text) (rows : UInt32) : List Text :=
  padBeforeFooter content rows footer.length ++ footer

end FrontierDirectorate.Terminal
