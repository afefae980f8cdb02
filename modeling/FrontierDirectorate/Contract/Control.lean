import Mathlib
import FrontierDirectorate.Contract.Frames
import FrontierDirectorate.Terminal.MapLaws

/-!
# Control

The cursor stays on the screen in every run of commands, and when the positions in
the audit stay inside it.
-/
namespace FrontierDirectorate.Terminal
open Checks Words

section cursor

/-- The selection is a tile of the world and the local map shows and draws it. -/
structure CursorOnScreen (width height : UInt32) (t : ControlState) : Prop where
  inside : t.render.selectedX < width ∧ t.render.selectedY < height
  selectedX : (localView t.render width height).selectedX = t.render.selectedX
  selectedY : (localView t.render width height).selectedY = t.render.selectedY
  shows : (localView t.render width height).Shows width height
  drawn : ∀ (snapshot : Snapshot) (frame : Text), snapshot.info.width = width →
    snapshot.info.height = height → height ≤ fdMaxHeight →
    renderAscii (some snapshot) { t.render with mode := .localMap } = .ok frame →
    ∃ lines, FrameOf t.render.columns t.render.rows frame lines ∧
      ∃ text, lines[4 + (t.render.selectedY.toNat -
          (localView t.render width height).originY.toNat)]? = some text ∧
        text[5 + (t.render.selectedX.toNat -
          (localView t.render width height).originX.toNat)]? = some 0x40

/-- A frame of the local map has the cursor at the selected tile. -/
theorem cursor_drawn (options : RenderOptions) {snapshot : Snapshot} {frame : Text}
    (hmode : options.mode = .localMap) (hcolumns : 80 ≤ options.columns)
    (hrows : 24 ≤ options.rows) (hheight : snapshot.info.height ≤ fdMaxHeight)
    (hshows : (localView options snapshot.info.width snapshot.info.height).Shows
      snapshot.info.width snapshot.info.height)
    (h : renderAscii (some snapshot) options = .ok frame) :
    ∃ lines, FrameOf options.columns options.rows frame lines ∧
      ∃ text, lines[4 + ((localView options snapshot.info.width snapshot.info.height).selectedY.toNat -
          (localView options snapshot.info.width snapshot.info.height).originY.toNat)]? = some text ∧
        text[5 + ((localView options snapshot.info.width snapshot.info.height).selectedX.toNat -
          (localView options snapshot.info.width snapshot.info.height).originX.toNat)]? =
            some 0x40 := by
  have hrender : (ScreenCall.map (some snapshot)).render options = .ok frame := h
  obtain ⟨lines, hlines, hof, -⟩ := (promisedFrame_of_render hrender).complete hcolumns hrows
  obtain ⟨-, hlines⟩ := failIf_bind_eq_ok.mp hlines
  obtain ⟨info, hinfo, hlines⟩ := bind_eq_ok.mp hlines
  obtain ⟨entities, -, hlines⟩ := bind_eq_ok.mp hlines
  obtain rfl : snapshot.info = info := Except.ok.inj hinfo
  simp only [hmode] at hlines
  have hsmall : snapshot.info.height.toNat ≤ 1000 :=
    (UInt32.le_iff_toNat_le.mp hheight).trans (by decide)
  obtain ⟨text, htext, hcursor⟩ := localLines_cursor hcolumns hsmall hshows hlines
  refine ⟨_, hof, shown options.columns text, ?_, hcursor⟩
  rw [List.getElem?_map, htext]
  rfl

theorem CursorVisible.drawn {t : ControlState} (h : CursorVisible t)
    (hcolumns : 80 ≤ t.render.columns) (hrows : 24 ≤ t.render.rows) {snapshot : Snapshot}
    {frame : Text} (hwidth : snapshot.info.width = t.worldWidth)
    (hheight : snapshot.info.height = t.worldHeight) (hmax : t.worldHeight ≤ fdMaxHeight)
    (hframe : renderAscii (some snapshot) { t.render with mode := .localMap } = .ok frame) :
    ∃ lines, FrameOf t.render.columns t.render.rows frame lines ∧
      ∃ text, lines[4 + (t.render.selectedY.toNat -
          (localView t.render t.worldWidth t.worldHeight).originY.toNat)]? = some text ∧
        text[5 + (t.render.selectedX.toNat -
          (localView t.render t.worldWidth t.worldHeight).originX.toNat)]? = some 0x40 := by
  obtain ⟨hx, hy, hshows⟩ := h.shows hcolumns hrows
  rw [← hheight] at hmax
  rw [← hwidth, ← hheight] at hx hy hshows ⊢
  rw [← hx, ← hy]
  exact cursor_drawn { t.render with mode := .localMap } rfl hcolumns hrows hmax hshows hframe

/-- The cursor stays on screen: after any commands but a pass the selection lies in the world and
in what the local map shows of it, and no subtraction on the way wraps. -/
theorem cursor_stays_on_screen (s : ControlState) (commands : List ControlCommand)
    (hwidth : s.worldWidth ≠ 0) (hheight : s.worldHeight ≠ 0)
    (hcolumns : 80 ≤ s.render.columns) (hrows : 24 ≤ s.render.rows) (hne : commands ≠ [])
    (hpass : ∀ command ∈ commands, command.kind ≠ .pass) :
    CursorOnScreen s.worldWidth s.worldHeight (applyControls s commands) ∧
      applyControlsChecked s commands = some (applyControls s commands) ∧
      localViewWith .checked (applyControls s commands).render s.worldWidth s.worldHeight =
        some (localView (applyControls s commands).render s.worldWidth s.worldHeight) := by
  have hsame := sameScreen_applyControls s commands
  have hvisible := cursorVisible_applyControls hwidth hheight hne hpass
  have hcolumns' : 80 ≤ (applyControls s commands).render.columns := by
    rw [hsame.columns]
    exact hcolumns
  have hrows' : 24 ≤ (applyControls s commands).render.rows := by
    rw [hsame.rows]
    exact hrows
  refine ⟨?_, applyControlsChecked_eq s commands,
    localView_checked hcolumns' hrows' hwidth hheight⟩
  rw [← hsame.worldWidth, ← hsame.worldHeight]
  obtain ⟨hx, hy, hshows⟩ := hvisible.shows hcolumns' hrows'
  exact ⟨hvisible.inside, hx, hy, hshows,
    fun snapshot frame hw hh hmax hframe => hvisible.drawn hcolumns' hrows' hw hh hmax hframe⟩

/-- A stale viewport on a map smaller than the terminal. -/
def staleState : ControlState :=
  { ControlState.initial with
    render := { RenderOptions.initial with
      viewportX := 4294967295, viewportY := 4294967295, selectedX := 4294967295, selectedY := 7 }
    worldWidth := 40
    worldHeight := 20 }

theorem cursor_stays_on_screen_sample :
    CursorOnScreen 40 20 (applyControls staleState [⟨.moveLeft, []⟩, ⟨.quit, []⟩]) ∧
      applyControlsChecked staleState [⟨.moveLeft, []⟩, ⟨.quit, []⟩] =
        some (applyControls staleState [⟨.moveLeft, []⟩, ⟨.quit, []⟩]) ∧
      localViewWith .checked (applyControls staleState [⟨.moveLeft, []⟩, ⟨.quit, []⟩]).render 40 20 =
        some (localView (applyControls staleState [⟨.moveLeft, []⟩, ⟨.quit, []⟩]).render 40 20) :=
  cursor_stays_on_screen staleState [⟨.moveLeft, []⟩, ⟨.quit, []⟩] (by decide) (by decide) (by decide) (by decide) (by decide) (by decide)

end cursor

section paging

/-- Both positions are attempts of the audit, or zero when it is empty. -/
def PositionsInAudit (s : ControlState) : Prop :=
  InAudit s.auditCount s.firstLogRecord ∧ InAudit s.auditCount s.replayRecord

instance (s : ControlState) : Decidable (PositionsInAudit s) :=
  inferInstanceAs (Decidable (_ < _ ∧ _ < _))

/-- Page-down on the log of a short audit, from its first attempt. -/
def OvershootsAudit (s : ControlState) (command : ControlCommand) : Prop :=
  (s.worldWidth ≠ 0 ∧ s.worldHeight ≠ 0) ∧ command.kind = .pageDown ∧
    s.view ≠ .replayInspector ∧ s.firstLogRecord = 0 ∧ 1 ≤ s.auditCount.toNat ∧
    s.auditCount.toNat ≤ 10

/-- The positions after a command are those after its case of the switch. -/
theorem positions_applyControl {s : ControlState} (hwidth : s.worldWidth ≠ 0)
    (hheight : s.worldHeight ≠ 0) {command : ControlCommand} (hpass : command.kind ≠ .pass) :
    PositionsInAudit (applyControl s command).1 ↔
      PositionsInAudit (applyKind .machine (clampSelection .machine s) command) := by
  rw [applyControl_of_command hwidth hheight hpass]
  rfl

theorem positions_pageDown {s : ControlState} (h : PositionsInAudit s) :
    PositionsInAudit (pageDown .machine s) ↔
      ¬ (s.view ≠ .replayInspector ∧ s.firstLogRecord = 0 ∧ 1 ≤ s.auditCount.toNat ∧
        s.auditCount.toNat ≤ 10) := by
  obtain ⟨message, hpage⟩ := pageDown_machine s
  rw [hpage]
  by_cases hview : s.view = .replayInspector
  · rw [if_pos hview]
    have hin : PositionsInAudit (ControlState.say
        { s with replayRecord := inspectorForward .machine s.auditCount s.replayRecord } message) :=
      ⟨h.1, inspectorForward_inAudit h.2⟩
    exact ⟨fun _ hshort => hshort.1 hview, fun _ => hin⟩
  · rw [if_neg hview]
    have hiff := logForward_inAudit_iff h.1
    constructor
    · intro hin hshort
      exact hiff.mp hin.1 hshort.2
    · intro hshort
      exact ⟨hiff.mpr fun hfirst => hshort ⟨hview, hfirst⟩, h.2⟩

theorem positions_pageUp {s : ControlState} (h : PositionsInAudit s) :
    PositionsInAudit (pageUp .machine s) := by
  obtain ⟨message, hpage⟩ := pageUp_machine s
  rw [hpage]
  by_cases hview : s.view = .replayInspector
  · rw [if_pos hview]
    exact ⟨h.1, inspectorBack_inAudit h.2⟩
  · rw [if_neg hview]
    exact ⟨logBack_inAudit h.1, h.2⟩

/-- A command keeps the positions in the audit exactly when it does not overshoot. -/
theorem positions_step {s : ControlState} (h : PositionsInAudit s) {command : ControlCommand}
    (hpass : command.kind ≠ .pass) :
    PositionsInAudit (applyControl s command).1 ↔ ¬ OvershootsAudit s command := by
  by_cases hsize : s.worldWidth = 0 ∨ s.worldHeight = 0
  · have hrun : (applyControl s command).1 = s := by
      unfold applyControl applyControlWith
      rw [if_pos hsize]
      rfl
    rw [hrun]
    refine ⟨fun _ hshort => ?_, fun _ => h⟩
    rcases hsize with hsize | hsize
    · exact hshort.1.1 hsize
    · exact hshort.1.2 hsize
  · obtain ⟨hwidth, hheight⟩ := not_or.mp hsize
    rw [positions_applyControl hwidth hheight hpass]
    have hclamp : PositionsInAudit (clampSelection .machine s) := h
    by_cases hdown : command.kind = .pageDown
    · have hrun : applyKind .machine (clampSelection .machine s) command =
          pageDown .machine (clampSelection .machine s) := by
        unfold applyKind
        rw [hdown]
      rw [hrun, positions_pageDown hclamp]
      exact not_congr ⟨fun hshort => ⟨⟨hwidth, hheight⟩, hdown, hshort⟩, fun hshort => hshort.2.2⟩
    · refine ⟨fun _ hshort => hdown hshort.2.1, fun _ => ?_⟩
      by_cases hup : command.kind = .pageUp
      · have hrun : applyKind .machine (clampSelection .machine s) command =
            pageUp .machine (clampSelection .machine s) := by
          unfold applyKind
          rw [hup]
        rw [hrun]
        exact positions_pageUp hclamp
      · obtain ⟨hfirst, hrecord⟩ := positions_applyKind (s := clampSelection .machine s) hup hdown
        have hsame := sameScreen_applyKind (clampSelection .machine s) command
        unfold PositionsInAudit
        rw [hfirst, hrecord, hsame.auditCount]
        exact h

/-- The states a run passes through, the first one included. -/
def visitedStates (s : ControlState) : List ControlCommand → List ControlState
  | [] => [s]
  | command :: commands => s :: visitedStates (applyControl s command).1 commands

/-- Whether a run has a command that overshoots the audit. -/
def RunOvershoots (s : ControlState) : List ControlCommand → Prop
  | [] => False
  | command :: commands => OvershootsAudit s command ∨
      RunOvershoots (applyControl s command).1 commands

/-- Paging stays in the audit in exactly the runs in which no page-down is taken on the log of one
to ten attempts from its first attempt. -/
theorem paging_stays_iff {s : ControlState} {commands : List ControlCommand}
    (h : PositionsInAudit s) (hpass : ∀ command ∈ commands, command.kind ≠ .pass) :
    (∀ t ∈ visitedStates s commands, PositionsInAudit t) ↔ ¬ RunOvershoots s commands := by
  induction commands generalizing s with
  | nil =>
      refine ⟨fun _ hrun => hrun, fun _ t ht => ?_⟩
      rw [List.mem_singleton.mp ht]
      exact h
  | cons command commands ih =>
      have hstep := positions_step h (hpass command List.mem_cons_self)
      have hrest : ∀ command ∈ commands, command.kind ≠ .pass :=
        fun c hc => hpass c (List.mem_cons_of_mem _ hc)
      rw [visitedStates, List.forall_mem_cons, RunOvershoots, not_or]
      constructor
      · rintro ⟨-, hall⟩
        have hnext : PositionsInAudit (applyControl s command).1 := by
          refine hall _ ?_
          cases commands with
          | nil => exact List.mem_singleton_self _
          | cons c cs => exact List.mem_cons_self
        exact ⟨hstep.mp hnext, (ih hnext hrest).mp hall⟩
      · rintro ⟨hkeeps, hrun⟩
        exact ⟨h, (ih (hstep.mpr hkeeps) hrest).mpr hrun⟩

/-- A log of some attempts, at its start. -/
def logOf (attempts : UInt64) : ControlState :=
  { ControlState.initial with view := .messages, auditCount := attempts }

theorem paging_stays_iff_sample :
    (∀ t ∈ visitedStates (logOf 25) [⟨.pageDown, []⟩, ⟨.pageDown, []⟩, ⟨.pageDown, []⟩],
        PositionsInAudit t) ↔
      ¬ RunOvershoots (logOf 25) [⟨.pageDown, []⟩, ⟨.pageDown, []⟩, ⟨.pageDown, []⟩] :=
  paging_stays_iff (by decide) (by decide)

/-- One page-down on a log of five attempts goes to attempt ten. -/
theorem paging_leaves_short_audit :
    (applyControls (logOf 5) [⟨.pageDown, []⟩]).firstLogRecord = 10 ∧
      ¬ ∀ (s : ControlState) (commands : List ControlCommand), PositionsInAudit s →
        (∀ command ∈ commands, command.kind ≠ .pass) →
        PositionsInAudit (applyControls s commands) :=
  ⟨by decide, fun h => absurd (h (logOf 5) [⟨.pageDown, []⟩] (by decide) (by decide)) (by decide)⟩

/-- The client moves the positions back into the audit before it renders either screen. -/
theorem positions_ensureAudit (s : ControlState) (attempts : UInt64) :
    PositionsInAudit (ensureAudit s attempts) := by
  have hclamp : ∀ position : UInt64, attempts ≠ 0 → InAudit attempts (min position (attempts - 1)) := by
    intro position h
    have hpos := pos_of_ne_zero_long h
    unfold InAudit
    rw [toNat_min_long, toNat_pred_long h]
    omega
  unfold ensureAudit
  by_cases h : attempts = 0
  · rw [if_pos h]
    exact ⟨lt_max_iff.mpr (.inl Nat.zero_lt_one), lt_max_iff.mpr (.inl Nat.zero_lt_one)⟩
  · rw [if_neg h]
    exact ⟨hclamp _ h, hclamp _ h⟩

end paging

end FrontierDirectorate.Terminal
