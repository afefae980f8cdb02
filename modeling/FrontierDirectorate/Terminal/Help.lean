import Mathlib
import FrontierDirectorate.Terminal.ControlLaws
import FrontierDirectorate.Terminal.Frames

/-!
# The help screen

`render_control_help` of `control_model.hpp`, which lays its lines out by itself, and
the dispatch of `main.cpp` that shows it in place of the other screens.
-/
namespace FrontierDirectorate.Terminal
open Checks

/-- What the help screen says. -/
def helpContent : List Text :=
  [asciiBytes "FRONTIER DIRECTORATE | TERMINAL CONTROL HELP | ASCII/NO COLOR",
    asciiBytes "? help/toggle    q quit          arrows or h/j/k/l move cursor",
    asciiBytes "Tab cycle panes  Enter inspect   Esc cancel",
    asciiBytes "m local/strategic map            [ / ] supported scale",
    asciiBytes "PgUp/PgDn message-log scroll     /text filter action audit records",
    asciiBytes "pass submit explicit two-seat PASS through authoritative C API",
    asciiBytes "local strategic messages replay hash select explicit screens",
    asciiBytes "Input is line-oriented; named keys and terminal escape tokens are accepted."]

def helpFooter (s : ControlState) : List Text :=
  [asciiBytes "Message: " ++ s.render.message, asciiBytes "Help: ?=return q=quit"]

def helpLines (s : ControlState) : List Text := footed helpContent (helpFooter s) s.render.rows

/-- A line of the help screen. It is cut at the columns and keeps its trailing blanks. -/
def helpShown (columns : UInt32) (line : Text) : Text := (asciiText line).take columns.toNat

def renderControlHelp (s : ControlState) : Text :=
  (helpLines s).flatMap fun line => helpShown s.render.columns line ++ [newline]

/-- What an interactive session draws from: the snapshot of its world and the replay of its
audit, or why there is none. -/
structure InteractiveSession where
  snapshot : Except Fail Snapshot
  replay : Except Fail Replay

/-- The views of the audit: `ensure_audit`, then the screen. -/
def auditScreen (session : InteractiveSession) (s : ControlState)
    (screen : ReplayHandle → ControlState → Except Fail Text) : ControlState × Except Fail Text :=
  match session.replay with
  | .error failure => (s, .error failure)
  | .ok replay =>
      match ReplayHandle.info (some replay) with
      | .error failure => (s, .error failure)
      | .ok info =>
          let s := ensureAudit s (totalAttempts info)
          (s, screen (some replay) s)

/-- The screen of a view, with the state after it. -/
def viewScreen (session : InteractiveSession) (s : ControlState) :
    ControlState × Except Fail Text :=
  match s.view with
  | .help => (s, .ok (renderControlHelp s))
  | .messages => auditScreen session s fun replay s =>
      renderMessageLogAscii replay s.firstLogRecord s.render s.filter
  | .replayInspector => auditScreen session s fun replay s =>
      renderReplayInspectorAscii replay s.replayRecord s.render
  | .debugHash => (s, session.snapshot >>= fun snapshot =>
      renderDebugHashAscii (some snapshot) s.render)
  | .localMap | .strategic =>
      match session.snapshot with
      | .error failure => (s, .error failure)
      | .ok snapshot =>
          let mode := if s.view = .strategic then ScreenMode.strategic else .localMap
          let s := { s with render := { s.render with mode := mode } }
          (s, renderAscii (some snapshot) s.render)

/-- `interactive_render`: the state after it, and the frame. -/
def interactiveRender (session : Option InteractiveSession) (s : ControlState) :
    ControlState × Except Fail Text :=
  match session with
  | none => (s, .error (wrapperError fdErrState "interactive render session is invalid"))
  | some session => viewScreen session s

section frame

/-- The lines of a frame. -/
def frameHeight (frame : Text) : Nat := frame.count newline

theorem frameHeight_lines {lines : List Text}
    (h : ∀ line ∈ lines, ∀ byte ∈ line, printable byte = true) :
    frameHeight (lines.flatMap (· ++ [newline])) = lines.length := by
  induction lines with
  | nil => rfl
  | cons line lines ih =>
      have hline : line.count newline = 0 := by
        refine List.count_eq_zero.mpr fun hmem => ?_
        exact absurd (h line List.mem_cons_self newline hmem) (by decide)
      have hrest := ih fun other hother => h other (List.mem_cons_of_mem _ hother)
      unfold frameHeight at hrest ⊢
      rw [List.flatMap_cons, List.count_append, List.count_append, hline, hrest]
      simp only [List.count_singleton_self, List.length_cons]
      omega

theorem FrameOf.height {columns rows : UInt32} {frame : Text} {lines : List Text}
    (h : FrameOf columns rows frame lines) : frameHeight frame = rows.toNat := by
  rw [h.text, frameHeight_lines h.bytes, h.count]

end frame

section help

variable (s : ControlState)

theorem helpLines_length : (helpLines s).length = max s.render.rows.toNat 10 := by
  have hcontent : helpContent.length = 8 := rfl
  have hfooter : (helpFooter s).length = 2 := rfl
  unfold helpLines footed padBeforeFooter
  simp only [List.length_append, List.length_replicate, hcontent, hfooter]
  omega

theorem renderControlHelp_eq :
    renderControlHelp s = ((helpLines s).map (helpShown s.render.columns)).flatMap
      (· ++ [newline]) := by
  rw [List.flatMap_map]
  rfl

theorem printable_helpShown {columns : UInt32} {line : Text} {byte : UInt8}
    (h : byte ∈ helpShown columns line) : printable byte = true :=
  printable_asciiText (List.mem_of_mem_take h)

/-- The help screen has ten lines, or one for each row where there are more rows. -/
theorem frameHeight_help : frameHeight (renderControlHelp s) = max s.render.rows.toNat 10 := by
  have hbytes : ∀ line ∈ (helpLines s).map (helpShown s.render.columns),
      ∀ byte ∈ line, printable byte = true := by
    intro line hline byte hbyte
    obtain ⟨source, -, rfl⟩ := List.mem_map.mp hline
    exact printable_helpShown hbyte
  rw [renderControlHelp_eq, frameHeight_lines hbytes, List.length_map, helpLines_length]

theorem frameOf_help (h : 10 ≤ s.render.rows.toNat) :
    FrameOf s.render.columns s.render.rows (renderControlHelp s)
      ((helpLines s).map (helpShown s.render.columns)) where
  text := renderControlHelp_eq s
  count := by
    rw [List.length_map, helpLines_length]
    exact max_eq_left h
  width := by
    intro line hline
    obtain ⟨source, -, rfl⟩ := List.mem_map.mp hline
    exact List.length_take_le _ _
  bytes := by
    intro line hline byte hbyte
    obtain ⟨source, -, rfl⟩ := List.mem_map.mp hline
    exact printable_helpShown hbyte

end help

end FrontierDirectorate.Terminal
