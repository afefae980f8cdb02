import Mathlib
import FrontierDirectorate.Lib.Words
import FrontierDirectorate.Terminal.Control
import FrontierDirectorate.Terminal.Maps

/-!
# The cursor and the viewport

A command leaves the selection in the world and scrolls the viewport to it; the
view the local map derives from that contains the selected tile.
-/
namespace FrontierDirectorate.Terminal
open Words

section checked

theorem word_checked {a b : UInt32} (h : b ≤ a) : Subtraction.checked.word a b = some (a - b) :=
  if_pos h

theorem long_checked {a b : UInt64} (h : b ≤ a) : Subtraction.checked.long a b = some (a - b) :=
  if_pos h

end checked

section axis

variable (selected viewport extent : UInt32)

/-- The viewport word after scrolling. -/
def scrolled : UInt32 :=
  if selected < viewport then selected
  else if extent ≤ selected - viewport then selected - extent + 1 else viewport

theorem keepVisible_checked : keepVisible .checked selected viewport extent =
    some (scrolled selected viewport extent) := by
  rw [scrolled, keepVisible]
  by_cases hbefore : selected < viewport
  · rw [if_pos hbefore, if_pos hbefore]
    rfl
  · have hle : viewport ≤ selected := UInt32.not_lt.mp hbefore
    rw [if_neg hbefore, if_neg hbefore, word_checked hle]
    by_cases hafter : extent ≤ selected - viewport
    · have hextent : extent ≤ selected := by
        rw [UInt32.le_iff_toNat_le, UInt32.toNat_sub_of_le _ _ hle] at hafter
        exact UInt32.le_iff_toNat_le.mpr (by omega)
      simp [hafter, word_checked hextent]
    · simp [hafter]

/-- The scrolled viewport contains the selection. -/
theorem scrolled_contains (h : 0 < extent.toNat) :
    scrolled selected viewport extent ≤ selected ∧
      selected.toNat < (scrolled selected viewport extent).toNat + extent.toNat := by
  rw [scrolled]
  have hlt := selected.toNat_lt
  by_cases hbefore : selected < viewport
  · rw [if_pos hbefore]
    exact ⟨UInt32.le_refl _, by omega⟩
  · rw [if_neg hbefore]
    have hle : viewport ≤ selected := UInt32.not_lt.mp hbefore
    have hspan : (selected - viewport).toNat = selected.toNat - viewport.toNat :=
      UInt32.toNat_sub_of_le _ _ hle
    rw [UInt32.le_iff_toNat_le] at hle
    by_cases hafter : extent ≤ selected - viewport
    · rw [if_pos hafter]
      rw [UInt32.le_iff_toNat_le, hspan] at hafter
      have hextent : extent ≤ selected := UInt32.le_iff_toNat_le.mpr (by omega)
      have hstart : (selected - extent).toNat = selected.toNat - extent.toNat :=
        UInt32.toNat_sub_of_le _ _ hextent
      have hnext : (selected - extent + 1).toNat = selected.toNat - extent.toNat + 1 := by
        rw [UInt32.toNat_add, hstart, UInt32.toNat_one]
        omega
      rw [UInt32.le_iff_toNat_le, hnext]
      omega
    · rw [if_neg hafter]
      rw [UInt32.le_iff_toNat_le, hspan] at hafter
      exact ⟨UInt32.le_iff_toNat_le.mpr hle, by omega⟩

/-- The origin a screen derives from a viewport that contains the selection. -/
theorem origin_contains {size : UInt32} (hle : viewport ≤ selected)
    (hlt : selected.toNat < viewport.toNat + extent.toNat) (hsize : selected < size) :
    (min viewport (size - min extent size)).toNat + (min extent size).toNat ≤ size.toNat ∧
      min viewport (size - min extent size) ≤ selected ∧
      selected.toNat < (min viewport (size - min extent size)).toNat + (min extent size).toNat := by
  have hwidth : min extent size ≤ size := min_le_right_word _ _
  rw [UInt32.le_iff_toNat_le] at hle
  rw [UInt32.lt_iff_toNat_lt] at hsize
  rw [UInt32.le_iff_toNat_le, toNat_min, UInt32.toNat_sub_of_le _ _ hwidth, toNat_min]
  omega

end axis

section commands

/-- The part of the map that a terminal of the size shows along one axis. -/
def shownExtent (size frame : UInt32) : UInt32 := if frame < size then size - frame else 1

theorem mapExtent_checked (size frame : UInt32) :
    mapExtent .checked size frame = some (shownExtent size frame) := by
  rw [mapExtent, shownExtent]
  by_cases h : frame < size
  · rw [if_pos h, if_pos h, word_checked (UInt32.le_of_lt h)]
  · rw [if_neg h, if_neg h]
    rfl

theorem shownExtent_pos (size frame : UInt32) : 0 < (shownExtent size frame).toNat := by
  rw [shownExtent]
  by_cases h : frame < size
  · rw [if_pos h, UInt32.toNat_sub_of_le _ _ (UInt32.le_of_lt h)]
    rw [UInt32.lt_iff_toNat_lt] at h
    omega
  · rw [if_neg h]
    decide

/-- `keep_cursor_visible` with the subtraction of the machine. -/
def keepCursorVisible (s : ControlState) : ControlState :=
  s.scroll (scrolled s.render.selectedX s.render.viewportX (shownExtent s.render.columns 32))
    (scrolled s.render.selectedY s.render.viewportY (shownExtent s.render.rows 9))

theorem keepCursorVisible_checked (s : ControlState) :
    keepCursorVisibleWith .checked s = some (keepCursorVisible s) := by
  unfold keepCursorVisibleWith
  simp only [mapExtent_checked, keepVisible_checked]
  rfl

theorem clampSelection_checked {s : ControlState} (hwidth : s.worldWidth ≠ 0)
    (hheight : s.worldHeight ≠ 0) :
    clampSelection .checked s = some (s.select (min s.render.selectedX (s.worldWidth - 1))
      (min s.render.selectedY (s.worldHeight - 1))) := by
  unfold clampSelection
  simp only [word_checked (one_le hwidth), word_checked (one_le hheight)]
  rfl

theorem cursorBack_checked (selected : UInt32) :
    cursorBack .checked selected = some (cursorBack .machine selected) := by
  unfold cursorBack
  by_cases h : selected ≠ 0
  · rw [if_pos h, if_pos h, word_checked (one_le h)]
    rfl
  · rw [if_neg h, if_neg h]
    rfl

theorem inspectorBack_checked (record : UInt64) :
    inspectorBack .checked record = some (inspectorBack .machine record) := by
  unfold inspectorBack
  by_cases h : record ≠ 0
  · rw [if_pos h, if_pos h, long_checked (one_le_long h)]
    rfl
  · rw [if_neg h, if_neg h]
    rfl

theorem inspectorForward_checked (count record : UInt64) :
    inspectorForward .checked count record = some (inspectorForward .machine count record) := by
  unfold inspectorForward
  by_cases h : count ≠ 0
  · rw [if_pos h, if_pos h, long_checked (one_le_long h)]
    rfl
  · rw [if_neg h, if_neg h]
    rfl

theorem logBack_checked (first : UInt64) :
    logBack .checked first = some (logBack .machine first) := by
  unfold logBack
  by_cases h : 10 < first
  · rw [if_pos h, if_pos h, long_checked (UInt64.le_of_lt h)]
    rfl
  · rw [if_neg h, if_neg h]
    rfl

theorem logForward_checked (count first : UInt64) :
    logForward .checked count first = some (logForward .machine count first) := by
  unfold logForward
  by_cases h : count ≠ 0
  · rw [if_pos h, if_pos h, long_checked (one_le_long h), Option.bind_eq_bind, Option.bind_some,
      long_checked (min_le_left_long _ _)]
    rfl
  · rw [if_neg h, if_neg h]
    rfl

theorem applyKind_checked (s : ControlState) (command : ControlCommand) :
    applyKind .checked s command = some (applyKind .machine s command) := by
  unfold applyKind
  cases command.kind with
  | moveUp =>
      simp only [cursorBack_checked]
      rfl
  | moveLeft =>
      simp only [cursorBack_checked]
      rfl
  | pageUp =>
      unfold pageUp
      simp only [inspectorBack_checked, logBack_checked]
      by_cases hview : s.view = .replayInspector
      · rw [if_pos hview, if_pos hview]
        rfl
      · rw [if_neg hview, if_neg hview]
        rfl
  | pageDown =>
      unfold pageDown
      simp only [inspectorForward_checked, logForward_checked]
      by_cases hview : s.view = .replayInspector
      · rw [if_pos hview, if_pos hview]
        rfl
      · rw [if_neg hview, if_neg hview]
        rfl
  | _ => rfl

/-- No command subtracts past zero. -/
theorem applyControl_checked (s : ControlState) (command : ControlCommand) :
    applyControlWith .checked s command = some (applyControl s command) := by
  unfold applyControl applyControlWith
  by_cases hsize : s.worldWidth = 0 ∨ s.worldHeight = 0
  · rw [if_pos hsize, if_pos hsize]
    rfl
  · obtain ⟨hwidth, hheight⟩ := not_or.mp hsize
    simp only [if_neg hsize, clampSelection_checked hwidth hheight, applyKind_checked,
      keepCursorVisible_checked, Option.bind_eq_bind, Option.bind_some]
    by_cases hpass : command.kind = .pass
    · simp only [if_pos hpass]
      rfl
    · simp only [if_neg hpass]
      rfl

/-- What a page command does to the two positions in the audit, and nothing else but the message. -/
theorem pageUp_machine (s : ControlState) : ∃ message, pageUp .machine s =
    ControlState.say (if s.view = .replayInspector then
        { s with replayRecord := inspectorBack .machine s.replayRecord }
      else { s with firstLogRecord := logBack .machine s.firstLogRecord }) message := by
  unfold pageUp
  by_cases hview : s.view = .replayInspector
  · rw [if_pos hview]
    refine ⟨asciiBytes "Replay inspector moved back one attempt.", ?_⟩
    rw [if_pos hview]
    rfl
  · rw [if_neg hview]
    refine ⟨asciiBytes "Message log scrolled up.", ?_⟩
    rw [if_neg hview]
    rfl

theorem pageDown_machine (s : ControlState) : ∃ message, pageDown .machine s =
    ControlState.say (if s.view = .replayInspector then
        { s with replayRecord := inspectorForward .machine s.auditCount s.replayRecord }
      else { s with firstLogRecord := logForward .machine s.auditCount s.firstLogRecord })
      message := by
  unfold pageDown
  by_cases hview : s.view = .replayInspector
  · rw [if_pos hview]
    refine ⟨asciiBytes "Replay inspector moved forward one attempt.", ?_⟩
    rw [if_pos hview]
    rfl
  · rw [if_neg hview]
    refine ⟨asciiBytes "Message log scrolled down.", ?_⟩
    rw [if_neg hview]
    rfl

/-- What no command changes: the world, the terminal and the number of attempts. -/
structure SameScreen (s t : ControlState) : Prop where
  worldWidth : t.worldWidth = s.worldWidth
  worldHeight : t.worldHeight = s.worldHeight
  columns : t.render.columns = s.render.columns
  rows : t.render.rows = s.render.rows
  auditCount : t.auditCount = s.auditCount

theorem SameScreen.refl (s : ControlState) : SameScreen s s := ⟨rfl, rfl, rfl, rfl, rfl⟩

theorem SameScreen.trans {s t u : ControlState} (h : SameScreen s t) (h' : SameScreen t u) :
    SameScreen s u :=
  ⟨h'.worldWidth.trans h.worldWidth, h'.worldHeight.trans h.worldHeight,
    h'.columns.trans h.columns, h'.rows.trans h.rows, h'.auditCount.trans h.auditCount⟩

theorem sameScreen_applyKind (s : ControlState) (command : ControlCommand) :
    SameScreen s (applyKind .machine s command) := by
  unfold applyKind
  cases command.kind with
  | pageUp =>
      obtain ⟨message, h⟩ := pageUp_machine s
      simp only [h]
      by_cases hview : s.view = .replayInspector
      · rw [if_pos hview]
        exact ⟨rfl, rfl, rfl, rfl, rfl⟩
      · rw [if_neg hview]
        exact ⟨rfl, rfl, rfl, rfl, rfl⟩
  | pageDown =>
      obtain ⟨message, h⟩ := pageDown_machine s
      simp only [h]
      by_cases hview : s.view = .replayInspector
      · rw [if_pos hview]
        exact ⟨rfl, rfl, rfl, rfl, rfl⟩
      · rw [if_neg hview]
        exact ⟨rfl, rfl, rfl, rfl, rfl⟩
  | _ => exact ⟨rfl, rfl, rfl, rfl, rfl⟩

/-- A command that is not a pass, on a world that has tiles. -/
theorem applyControl_of_command {s : ControlState} {command : ControlCommand}
    (hwidth : s.worldWidth ≠ 0) (hheight : s.worldHeight ≠ 0) (hpass : command.kind ≠ .pass) :
    applyControl s command =
      (keepCursorVisible (applyKind .machine (clampSelection .machine s) command), .ok ()) := by
  unfold applyControl applyControlWith
  rw [if_neg (not_or.mpr ⟨hwidth, hheight⟩)]
  exact if_neg hpass

theorem sameScreen_applyControl (s : ControlState) (command : ControlCommand) :
    SameScreen s (applyControl s command).1 := by
  by_cases hsize : s.worldWidth = 0 ∨ s.worldHeight = 0
  · unfold applyControl applyControlWith
    rw [if_pos hsize]
    exact .refl s
  · obtain ⟨hwidth, hheight⟩ := not_or.mp hsize
    have hclamp : SameScreen s (clampSelection .machine s) := ⟨rfl, rfl, rfl, rfl, rfl⟩
    by_cases hpass : command.kind = .pass
    · have hrun : applyControl s command = (clampSelection .machine s,
          .error (renderError fdErrState "PASS must be submitted through the C action binding")) := by
        unfold applyControl applyControlWith
        rw [if_neg hsize]
        exact if_pos hpass
      rw [hrun]
      exact hclamp
    · rw [applyControl_of_command hwidth hheight hpass]
      have hkind := sameScreen_applyKind (clampSelection .machine s) command
      exact hclamp.trans ⟨hkind.worldWidth, hkind.worldHeight, hkind.columns, hkind.rows,
        hkind.auditCount⟩

/-- The selection is a tile of the world. -/
def SelectionInside (s : ControlState) : Prop :=
  s.render.selectedX < s.worldWidth ∧ s.render.selectedY < s.worldHeight

theorem selectionInside_clamp {s : ControlState} (hwidth : s.worldWidth ≠ 0)
    (hheight : s.worldHeight ≠ 0) : SelectionInside (clampSelection .machine s) := by
  have hclamp : ∀ selected size : UInt32, size ≠ 0 → min selected (size - 1) < size := by
    intro selected size h
    have hpos := pos_of_ne_zero h
    rw [UInt32.lt_iff_toNat_lt, toNat_min, toNat_pred h]
    omega
  exact ⟨hclamp _ _ hwidth, hclamp _ _ hheight⟩

/-- One step of the cursor along an axis stays on the axis. -/
theorem axis_step {selected size : UInt32} (h : selected < size) :
    (if selected ≠ 0 then selected - 1 else selected) < size ∧
      (if selected + 1 < size then selected + 1 else selected) < size := by
  constructor
  · by_cases hzero : selected ≠ 0
    · rw [if_pos hzero]
      rw [UInt32.lt_iff_toNat_lt] at h ⊢
      rw [toNat_pred hzero]
      omega
    · rw [if_neg hzero]
      exact h
  · by_cases hnext : selected + 1 < size
    · rw [if_pos hnext]
      exact hnext
    · rw [if_neg hnext]
      exact h

theorem selectionInside_applyKind {s : ControlState} (h : SelectionInside s)
    (command : ControlCommand) : SelectionInside (applyKind .machine s command) := by
  unfold applyKind
  cases command.kind with
  | moveUp => exact ⟨h.1, (axis_step h.2).1⟩
  | moveDown => exact ⟨h.1, (axis_step h.2).2⟩
  | moveLeft => exact ⟨(axis_step h.1).1, h.2⟩
  | moveRight => exact ⟨(axis_step h.1).2, h.2⟩
  | pageUp =>
      obtain ⟨message, hpage⟩ := pageUp_machine s
      simp only [hpage]
      by_cases hview : s.view = .replayInspector
      · rw [if_pos hview]
        exact h
      · rw [if_neg hview]
        exact h
  | pageDown =>
      obtain ⟨message, hpage⟩ := pageDown_machine s
      simp only [hpage]
      by_cases hview : s.view = .replayInspector
      · rw [if_pos hview]
        exact h
      · rw [if_neg hview]
        exact h
  | _ => exact h

/-- The viewport word and the selection along one axis. -/
def AxisVisible (selected viewport extent : UInt32) : Prop :=
  viewport ≤ selected ∧ selected.toNat < viewport.toNat + extent.toNat

/-- The selection is a tile of the world, and the viewport contains it. -/
structure CursorVisible (s : ControlState) : Prop where
  inside : SelectionInside s
  column : AxisVisible s.render.selectedX s.render.viewportX (shownExtent s.render.columns 32)
  row : AxisVisible s.render.selectedY s.render.viewportY (shownExtent s.render.rows 9)

/-- A command shows the cursor, whatever the state was. -/
theorem cursorVisible_applyControl {s : ControlState} {command : ControlCommand}
    (hwidth : s.worldWidth ≠ 0) (hheight : s.worldHeight ≠ 0) (hpass : command.kind ≠ .pass) :
    CursorVisible (applyControl s command).1 := by
  rw [applyControl_of_command hwidth hheight hpass]
  have hinside := selectionInside_applyKind (selectionInside_clamp hwidth hheight) command
  exact ⟨hinside, scrolled_contains _ _ _ (shownExtent_pos _ _),
    scrolled_contains _ _ _ (shownExtent_pos _ _)⟩

end commands

section runs

@[simp] theorem applyControls_cons (s : ControlState) (command : ControlCommand)
    (commands : List ControlCommand) :
    applyControls s (command :: commands) = applyControls (applyControl s command).1 commands := rfl

theorem applyControls_concat (s : ControlState) (commands : List ControlCommand)
    (command : ControlCommand) :
    applyControls s (commands ++ [command]) = (applyControl (applyControls s commands) command).1 := by
  unfold applyControls
  rw [List.foldl_append]
  rfl

theorem sameScreen_applyControls (s : ControlState) (commands : List ControlCommand) :
    SameScreen s (applyControls s commands) := by
  induction commands generalizing s with
  | nil => exact .refl s
  | cons command commands ih =>
      rw [applyControls_cons]
      exact (sameScreen_applyControl s command).trans (ih _)

/-- A run of commands shows the cursor at its end. -/
theorem cursorVisible_applyControls {s : ControlState} {commands : List ControlCommand}
    (hwidth : s.worldWidth ≠ 0) (hheight : s.worldHeight ≠ 0) (hne : commands ≠ [])
    (hpass : ∀ command ∈ commands, command.kind ≠ .pass) :
    CursorVisible (applyControls s commands) := by
  obtain ⟨front, last, rfl⟩ := (List.eq_nil_or_concat' commands).resolve_left hne
  rw [applyControls_concat]
  have hsame := sameScreen_applyControls s front
  refine cursorVisible_applyControl ?_ ?_ (hpass last (by simp))
  · rw [hsame.worldWidth]
    exact hwidth
  · rw [hsame.worldHeight]
    exact hheight

/-- The commands one after the other, stopping where a subtraction would wrap. -/
def applyControlsChecked (s : ControlState) (commands : List ControlCommand) :
    Option ControlState :=
  commands.foldlM (fun s command => Prod.fst <$> applyControlWith .checked s command) s

theorem applyControlsChecked_eq (s : ControlState) (commands : List ControlCommand) :
    applyControlsChecked s commands = some (applyControls s commands) := by
  unfold applyControlsChecked
  induction commands generalizing s with
  | nil => rfl
  | cons command commands ih =>
      rw [List.foldlM_cons, applyControl_checked, applyControls_cons, ← ih]
      rfl

end runs

section positions

/-- A position in an audit of so many attempts. -/
def InAudit (count position : UInt64) : Prop := position.toNat < max 1 count.toNat

theorem inspectorBack_inAudit {count record : UInt64} (h : InAudit count record) :
    InAudit count (inspectorBack .machine record) := by
  have hrun : inspectorBack .machine record = if record ≠ 0 then record - 1 else record := rfl
  rw [hrun]
  by_cases hzero : record ≠ 0
  · rw [if_pos hzero]
    have hpred := toNat_pred_long hzero
    unfold InAudit at h ⊢
    omega
  · rw [if_neg hzero]
    exact h

theorem inspectorForward_inAudit {count record : UInt64} (h : InAudit count record) :
    InAudit count (inspectorForward .machine count record) := by
  have hrun : inspectorForward .machine count record =
      if count ≠ 0 then (if record < count - 1 then record + 1 else record) else record := rfl
  rw [hrun]
  by_cases hcount : count ≠ 0
  · rw [if_pos hcount]
    by_cases hlast : record < count - 1
    · rw [if_pos hlast]
      rw [UInt64.lt_iff_toNat_lt, toNat_pred_long hcount] at hlast
      have hlt := count.toNat_lt
      unfold InAudit
      rw [UInt64.toNat_add, UInt64.toNat_one]
      omega
    · rw [if_neg hlast]
      exact h
  · rw [if_neg hcount]
    exact h

theorem logBack_inAudit {count first : UInt64} (h : InAudit count first) :
    InAudit count (logBack .machine first) := by
  have hrun : logBack .machine first = if 10 < first then first - 10 else 0 := rfl
  rw [hrun]
  by_cases hfar : 10 < first
  · rw [if_pos hfar]
    have hback := UInt64.toNat_sub_of_le _ _ (UInt64.le_of_lt hfar)
    unfold InAudit at h ⊢
    omega
  · rw [if_neg hfar]
    exact lt_max_iff.mpr (.inl Nat.zero_lt_one)

/-- Page-down leaves a short audit from its first attempt, and never otherwise. -/
theorem logForward_inAudit_iff {count first : UInt64} (h : InAudit count first) :
    InAudit count (logForward .machine count first) ↔
      ¬ (first = 0 ∧ 1 ≤ count.toNat ∧ count.toNat ≤ 10) := by
  have hrun : logForward .machine count first =
      if count ≠ 0 then
        (if count - 1 - min (count - 1) 10 < first then count - 1 else first + 10)
      else first := rfl
  have hten : (10 : UInt64).toNat = 10 := rfl
  rw [hrun]
  unfold InAudit at h ⊢
  by_cases hcount : count ≠ 0
  · rw [if_pos hcount]
    have hpos := pos_of_ne_zero_long hcount
    have hlast := toNat_pred_long hcount
    have hlimit : (count - 1 - min (count - 1) 10).toNat =
        count.toNat - 1 - min (count.toNat - 1) 10 := by
      rw [UInt64.toNat_sub_of_le _ _ (min_le_left_long _ _), toNat_min_long, hlast, hten]
    have hzero : first = 0 ↔ first.toNat = 0 := by
      rw [← UInt64.toNat_inj]
      rfl
    by_cases hnear : count - 1 - min (count - 1) 10 < first
    · rw [if_pos hnear, hlast, hzero]
      rw [UInt64.lt_iff_toNat_lt, hlimit] at hnear
      omega
    · rw [if_neg hnear, hzero]
      rw [UInt64.lt_iff_toNat_lt, hlimit] at hnear
      have hlt := count.toNat_lt
      have hnext : (first + 10).toNat = first.toNat + 10 := by
        rw [UInt64.toNat_add, hten]
        omega
      rw [hnext]
      omega
  · have hzero : count.toNat = 0 := by
      rw [not_not.mp hcount]
      rfl
    rw [if_neg hcount]
    constructor
    · intro _ hshort
      omega
    · intro _
      exact h

/-- Only the page commands move the positions in the audit. -/
theorem positions_applyKind {s : ControlState} {command : ControlCommand}
    (hup : command.kind ≠ .pageUp) (hdown : command.kind ≠ .pageDown) :
    (applyKind .machine s command).firstLogRecord = s.firstLogRecord ∧
      (applyKind .machine s command).replayRecord = s.replayRecord := by
  unfold applyKind
  cases hkind : command.kind with
  | pageUp => exact absurd hkind hup
  | pageDown => exact absurd hkind hdown
  | _ => exact ⟨rfl, rfl⟩

end positions

section view

variable {options : RenderOptions} {width height : UInt32}

theorem availableMap_eq (columns : UInt32) :
    columns - kInspectorWidth - 2 - kMapPrefixWidth - 2 = columns - 32 := by
  grind

theorem localView_checked (hcolumns : 80 ≤ options.columns) (hrows : 24 ≤ options.rows)
    (hwidth : width ≠ 0) (hheight : height ≠ 0) :
    localViewWith .checked options width height = some (localView options width height) := by
  have hcolumns' : 80 ≤ options.columns.toNat := UInt32.le_iff_toNat_le.mp hcolumns
  have htwo : (2 : UInt32).toNat = 2 := rfl
  have hfour : kMapPrefixWidth.toNat = 4 := rfl
  have hinspector : kInspectorWidth ≤ options.columns :=
    UInt32.le_iff_toNat_le.mpr ((by decide : kInspectorWidth.toNat ≤ 80).trans hcolumns')
  have h₁ : (options.columns - kInspectorWidth).toNat = options.columns.toNat - 24 :=
    UInt32.toNat_sub_of_le _ _ hinspector
  have hgap : 2 ≤ options.columns - kInspectorWidth := by
    rw [UInt32.le_iff_toNat_le, h₁, htwo]
    omega
  have h₂ : (options.columns - kInspectorWidth - 2).toNat = options.columns.toNat - 24 - 2 := by
    rw [UInt32.toNat_sub_of_le _ _ hgap, h₁]
    rfl
  have hprefix : kMapPrefixWidth ≤ options.columns - kInspectorWidth - 2 := by
    rw [UInt32.le_iff_toNat_le, h₂, hfour]
    omega
  have h₃ : (options.columns - kInspectorWidth - 2 - kMapPrefixWidth).toNat =
      options.columns.toNat - 24 - 2 - 4 := by
    rw [UInt32.toNat_sub_of_le _ _ hprefix, h₂]
    rfl
  have hframe : 2 ≤ options.columns - kInspectorWidth - 2 - kMapPrefixWidth := by
    rw [UInt32.le_iff_toNat_le, h₃, htwo]
    omega
  have hrows' : 9 ≤ options.rows :=
    UInt32.le_trans (UInt32.le_iff_toNat_le.mpr (by decide)) hrows
  unfold localViewWith
  simp only [word_checked (one_le hwidth), word_checked (one_le hheight), word_checked hinspector,
    word_checked hgap, word_checked hprefix, word_checked hframe, word_checked hrows',
    word_checked (min_le_right_word _ _), Option.bind_eq_bind, Option.bind_some]
  rfl

/-- The view is a part of the map that contains the selected tile. -/
structure LocalView.Shows (view : LocalView) (width height : UInt32) : Prop where
  columns : view.originX.toNat + view.viewWidth.toNat ≤ width.toNat
  rows : view.originY.toNat + view.viewHeight.toNat ≤ height.toNat
  column : view.originX ≤ view.selectedX ∧
    view.selectedX.toNat < view.originX.toNat + view.viewWidth.toNat
  row : view.originY ≤ view.selectedY ∧
    view.selectedY.toNat < view.originY.toNat + view.viewHeight.toNat

/-- What the map screen shows of a state with a visible cursor. -/
theorem CursorVisible.shows {s : ControlState} (h : CursorVisible s)
    (hcolumns : 80 ≤ s.render.columns) (hrows : 24 ≤ s.render.rows) :
    (localView s.render s.worldWidth s.worldHeight).selectedX = s.render.selectedX ∧
      (localView s.render s.worldWidth s.worldHeight).selectedY = s.render.selectedY ∧
      (localView s.render s.worldWidth s.worldHeight).Shows s.worldWidth s.worldHeight := by
  have hlast : ∀ {selected size : UInt32}, selected < size → min selected (size - 1) = selected := by
    intro selected size hlt
    have hpos : size ≠ 0 := UInt32.pos_iff_ne_zero.mp (UInt32.lt_of_le_of_lt (UInt32.zero_le) hlt)
    rw [UInt32.lt_iff_toNat_lt] at hlt
    rw [← UInt32.toNat_inj, toNat_min, toNat_pred hpos]
    omega
  have hx := hlast h.inside.1
  have hy := hlast h.inside.2
  have hwide : shownExtent s.render.columns 32 =
      s.render.columns - kInspectorWidth - 2 - kMapPrefixWidth - 2 := by
    rw [availableMap_eq, shownExtent, if_pos]
    exact UInt32.lt_of_lt_of_le (by decide) hcolumns
  have htall : shownExtent s.render.rows 9 = s.render.rows - 9 := by
    rw [shownExtent, if_pos]
    exact UInt32.lt_of_lt_of_le (by decide) hrows
  have hcolumn := h.column
  have hrow := h.row
  rw [hwide] at hcolumn
  rw [htall] at hrow
  obtain ⟨hcolumnsIn, hleft, hright⟩ := origin_contains _ _ _ hcolumn.1 hcolumn.2 h.inside.1
  obtain ⟨hrowsIn, htop, hbottom⟩ := origin_contains _ _ _ hrow.1 hrow.2 h.inside.2
  refine ⟨hx, hy, hcolumnsIn, hrowsIn, ⟨?_, ?_⟩, ?_, ?_⟩
  · exact hleft.trans_eq hx.symm
  · exact (congrArg UInt32.toNat hx).trans_lt hright
  · exact htop.trans_eq hy.symm
  · exact (congrArg UInt32.toNat hy).trans_lt hbottom

end view

end FrontierDirectorate.Terminal
