import Mathlib
import FrontierDirectorate.Contract.Frames
import FrontierDirectorate.Terminal.Help

/-!
# Help

The help screen keeps the geometry of the terminal from ten rows on, and only then.
-/
namespace FrontierDirectorate.Terminal

/-- The frame contract of the help screen: the geometry of the terminal, and the height of the
screen that is switched to or from. -/
structure KeepsFrame (s : ControlState) : Prop where
  geometry : ∃ lines, FrameOf s.render.columns s.render.rows (renderControlHelp s) lines
  switch : ∀ (session session' : Option InteractiveSession) (text before after : Text),
    (interactiveRender session s).2 = .ok before →
    (interactiveRender session' (applyControl s ⟨.toggleHelp, text⟩).1).2 = .ok after →
    frameHeight after = frameHeight before

/-- A finished screen is as high as the terminal. -/
theorem screen_height (call : ScreenCall) {options : RenderOptions} {frame : Text}
    (h : call.render options = .ok frame) : frameHeight frame = options.rows.toNat := by
  obtain ⟨lines, hlines⟩ := (promisedFrame_of_render h).geometry
  exact hlines.height

theorem auditScreen_ok {session : InteractiveSession} {s : ControlState} {frame : Text}
    {screen : ReplayHandle → ControlState → Except Fail Text}
    (h : (auditScreen session s screen).2 = .ok frame) :
    ∃ replay attempts, screen (some replay) (ensureAudit s attempts) = .ok frame := by
  unfold auditScreen at h
  cases hreplay : session.replay with
  | error failure =>
      rw [hreplay] at h
      cases h
  | ok replay =>
      simp only [hreplay] at h
      cases hinfo : ReplayHandle.info (some replay) with
      | error failure =>
          rw [hinfo] at h
          cases h
      | ok info =>
          rw [hinfo] at h
          exact ⟨replay, totalAttempts info, h⟩

theorem ensureAudit_render (s : ControlState) (attempts : UInt64) :
    (ensureAudit s attempts).render = s.render := by
  unfold ensureAudit
  by_cases hnone : attempts = 0
  · rw [if_pos hnone]
  · rw [if_neg hnone]

/-- From ten rows on every frame of the session is as high as the terminal. -/
theorem interactiveRender_height {session : Option InteractiveSession} {s : ControlState}
    {frame : Text} (hrows : 10 ≤ s.render.rows.toNat)
    (h : (interactiveRender session s).2 = .ok frame) :
    frameHeight frame = s.render.rows.toNat := by
  cases session with
  | none => cases h
  | some session =>
      have h : (viewScreen session s).2 = .ok frame := h
      unfold viewScreen at h
      cases hview : s.view with
      | help =>
          simp only [hview, Except.ok.injEq] at h
          rw [← h, frameHeight_help]
          exact max_eq_left hrows
      | messages =>
          simp only [hview] at h
          obtain ⟨replay, attempts, hscreen⟩ := auditScreen_ok h
          rw [← ensureAudit_render s attempts]
          exact screen_height (.messageLog (some replay) _ _) hscreen
      | replayInspector =>
          simp only [hview] at h
          obtain ⟨replay, attempts, hscreen⟩ := auditScreen_ok h
          rw [← ensureAudit_render s attempts]
          exact screen_height (.replayInspector (some replay) _) hscreen
      | debugHash =>
          simp only [hview] at h
          obtain ⟨snapshot, -, hscreen⟩ := Checks.bind_eq_ok.mp h
          exact screen_height (.debugHash (some snapshot)) hscreen
      | localMap | strategic =>
          simp only [hview] at h
          cases hsnapshot : session.snapshot with
          | error failure =>
              simp only [hsnapshot] at h
              cases h
          | ok snapshot =>
              simp only [hsnapshot] at h
              have hmap : ∀ options : RenderOptions,
                  renderAscii (some snapshot) options = .ok frame →
                  options.rows = s.render.rows → frameHeight frame = s.render.rows.toNat := by
                intro options hframe hoptions
                rw [← hoptions]
                exact screen_height (.map (some snapshot)) hframe
              exact hmap _ h rfl

/-- The help screen keeps the frame contract on the terminals of at least ten rows, and on no
smaller one. -/
theorem help_keeps_frame_iff (s : ControlState) : KeepsFrame s ↔ 10 ≤ s.render.rows := by
  rw [UInt32.le_iff_toNat_le]
  constructor
  · rintro ⟨⟨lines, hlines⟩, -⟩
    have hheight := hlines.height
    rw [frameHeight_help] at hheight
    exact max_eq_left_iff.mp hheight
  · intro hten
    have hten : 10 ≤ s.render.rows.toNat := hten
    refine ⟨⟨_, frameOf_help s hten⟩, fun session session' text before after hbefore hafter => ?_⟩
    have hsame := (sameScreen_applyControl s ⟨.toggleHelp, text⟩).rows
    have hafterRows := interactiveRender_height (by rw [hsame]; exact hten) hafter
    rw [hafterRows, hsame, interactiveRender_height hten hbefore]

/-- A terminal of nine rows, which the other screens fill with the size notice. -/
def shortTerminal : ControlState :=
  { ControlState.initial with render := { RenderOptions.initial with rows := 9 } }

theorem help_overflows_short_terminal :
    (1 ≤ shortTerminal.render.columns ∧ shortTerminal.render.columns ≤ 512) ∧
      (1 ≤ shortTerminal.render.rows ∧ shortTerminal.render.rows ≤ 256) ∧
      (¬ ∃ lines, FrameOf shortTerminal.render.columns shortTerminal.render.rows
        (renderControlHelp shortTerminal) lines) ∧
      ¬ KeepsFrame shortTerminal := by
  have hfails : ¬ ∃ lines, FrameOf shortTerminal.render.columns shortTerminal.render.rows
      (renderControlHelp shortTerminal) lines := by
    rintro ⟨lines, hlines⟩
    have hheight := hlines.height
    rw [frameHeight_help] at hheight
    exact absurd hheight (by decide)
  exact ⟨by decide, by decide, hfails, fun hkeeps => hfails hkeeps.geometry⟩

end FrontierDirectorate.Terminal
