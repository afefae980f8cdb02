import Mathlib
import FrontierDirectorate.Contract.Saves
import FrontierDirectorate.Terminal.Entry
import FrontierDirectorate.Terminal.Frames

/-!
# Frames

Every frame of the renderer has the geometry of its terminal, and at a supported
size it shows all lines of its screen.
-/
namespace FrontierDirectorate.Terminal
open Checks

/-- What is promised of a frame: its rows, their width and their bytes, and at a supported size
that no line of the screen is cut off and that the message and the key hints are the last two. -/
structure PromisedFrame (call : ScreenCall) (options : RenderOptions) (frame : Text) : Prop where
  geometry : ∃ lines, FrameOf options.columns options.rows frame lines
  complete : kMinimumColumns ≤ options.columns → kMinimumRows ≤ options.rows →
    ∃ lines, call.lines options = .ok lines ∧
      FrameOf options.columns options.rows frame (lines.map (shown options.columns)) ∧
      ∃ above, ∃ hints ∈ call.keyHints, lines = above ++ [footerMessage options, hints] ∧
        shown options.columns hints = hints

/-- A successful render has passed the checks on the dimensions. -/
theorem render_cases {call : ScreenCall} {options : RenderOptions} {frame : Text}
    (h : call.render options = .ok frame) :
    (options.columns ≤ kMaximumColumns ∧ options.rows ≤ kMaximumRows) ∧
      ((options.columns < kMinimumColumns ∨ options.rows < kMinimumRows) ∧
          frame = finalize (sizeNoticeLines options) options.columns options.rows ∨
        ¬ (options.columns < kMinimumColumns ∨ options.rows < kMinimumRows) ∧
          ∃ lines, call.lines options = .ok lines ∧
            frame = finalize lines options.columns options.rows) := by
  rw [ScreenCall.render_eq] at h
  obtain ⟨-, h⟩ := failIf_bind_eq_ok.mp h
  obtain ⟨hbounds, h⟩ := failIf_bind_eq_ok.mp h
  obtain ⟨hcolumns, hrows⟩ := not_or.mp hbounds
  refine ⟨⟨UInt32.not_lt.mp hcolumns, UInt32.not_lt.mp hrows⟩, ?_⟩
  by_cases hsmall : options.columns < kMinimumColumns ∨ options.rows < kMinimumRows
  · rw [if_pos hsmall] at h
    cases h
    exact .inl ⟨hsmall, rfl⟩
  · rw [if_neg hsmall] at h
    obtain ⟨lines, hlines, h⟩ := bind_eq_ok.mp h
    cases h
    exact .inr ⟨hsmall, lines, hlines, rfl⟩

theorem promisedFrame_of_render {call : ScreenCall} {options : RenderOptions} {frame : Text}
    (h : call.render options = .ok frame) : PromisedFrame call options frame where
  geometry := by
    obtain ⟨-, ⟨-, rfl⟩ | ⟨-, lines, -, rfl⟩⟩ := render_cases h
    · exact ⟨_, frameOf_finalize _ _ _⟩
    · exact ⟨_, frameOf_finalize _ _ _⟩
  complete hcolumns hrows := by
    obtain ⟨-, ⟨hsmall, -⟩ | ⟨-, lines, hlines, rfl⟩⟩ := render_cases h
    · rcases hsmall with hsmall | hsmall
      · exact absurd hcolumns (UInt32.not_le.mpr hsmall)
      · exact absurd hrows (UInt32.not_le.mpr hsmall)
    · obtain ⟨hints, hmem, hscreen⟩ := ScreenCall.screenLines hrows hlines
      obtain ⟨above, habove⟩ := hscreen.last
      exact ⟨lines, hlines, frameOf_finalize_full hscreen.count _, above, hints, hmem, habove,
        ScreenCall.shown_keyHints hcolumns hmem⟩

section entry

variable {memory : Bool} {snapshot : SnapshotHandle} {options : Option AsciiOptions}

end entry

end FrontierDirectorate.Terminal
