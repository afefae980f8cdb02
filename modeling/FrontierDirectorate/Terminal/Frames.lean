import Mathlib
import FrontierDirectorate.Lib.Words
import FrontierDirectorate.Terminal.Audit
import FrontierDirectorate.Terminal.Maps

/-!
# Frames

What a finished screen is made of, and that every screen is one: the rows of the
terminal, no line wider than its columns, printable bytes only.
-/
namespace FrontierDirectorate.Terminal
open Checks Words

section text

theorem mem_fit {text : Text} {columns : UInt32} {byte : UInt8} (h : byte ∈ fit text columns) :
    byte ∈ text :=
  List.mem_of_mem_take ((List.rdropWhile_prefix (p := (· == blank)) _).subset h)

theorem fit_length_le (text : Text) (columns : UInt32) : (fit text columns).length ≤ columns.toNat := by
  have hprefix := (List.rdropWhile_prefix (p := (· == blank)) (text.take columns.toNat)).length_le
  exact hprefix.trans (List.length_take_le _ _)

theorem fit_of_fits {text : Text} {columns : UInt32} (h : text.length ≤ columns.toNat)
    (hlast : text.getLast? ≠ some blank) : fit text columns = text := by
  unfold fit
  rw [List.take_of_length_le h, List.rdropWhile_eq_self_iff]
  intro hne hblank
  rw [List.getLast?_eq_some_getLast hne] at hlast
  exact hlast (congrArg some (beq_iff_eq.mp hblank))

/-- What is not blank stays where it is. -/
theorem getElem?_fit {text : Text} {columns : UInt32} {i : Nat} {byte : UInt8}
    (h : text[i]? = some byte) (hi : i < columns.toNat) (hbyte : byte ≠ blank) :
    (fit text columns)[i]? = some byte := by
  have htake : (text.take columns.toNat)[i]? = some byte := by
    rw [List.getElem?_take_of_lt hi]
    exact h
  have hsplit : fit text columns ++ (text.take columns.toNat).rtakeWhile (· == blank) =
      text.take columns.toNat := List.rdropWhile_append_rtakeWhile
  rw [← hsplit] at htake
  rcases Nat.lt_or_ge i (fit text columns).length with hlt | hge
  · rwa [List.getElem?_append_left hlt] at htake
  · rw [List.getElem?_append_right hge] at htake
    have hmem := List.mem_rtakeWhile_imp (List.mem_of_getElem? htake)
    exact absurd (beq_iff_eq.mp hmem) hbyte

theorem printable_asciiText {text : Text} {byte : UInt8} (h : byte ∈ asciiText text) :
    printable byte = true := by
  obtain ⟨source, -, rfl⟩ := List.mem_map.mp h
  by_cases hsource : printable source = true
  · rw [if_pos hsource]
    exact hsource
  · rw [if_neg hsource]
    decide

end text

/-- `rows` lines of at most `columns` printable bytes, each ended by a newline. -/
structure FrameOf (columns rows : UInt32) (frame : Text) (lines : List Text) : Prop where
  text : frame = lines.flatMap (· ++ [newline])
  count : lines.length = rows.toNat
  width : ∀ line ∈ lines, line.length ≤ columns.toNat
  bytes : ∀ line ∈ lines, ∀ byte ∈ line, printable byte = true

theorem frameOf_finalize (lines : List Text) (columns rows : UInt32) :
    FrameOf columns rows (finalize lines columns rows)
      ((lines.take rows.toNat ++
        List.replicate (rows.toNat - (lines.take rows.toNat).length) []).map (shown columns)) where
  text := by
    rw [List.flatMap_map]
    rfl
  count := by
    rw [List.length_map, List.length_append, List.length_replicate, List.length_take]
    omega
  width := by
    intro line hline
    obtain ⟨source, -, rfl⟩ := List.mem_map.mp hline
    exact fit_length_le _ _
  bytes := by
    intro line hline byte hbyte
    obtain ⟨source, -, rfl⟩ := List.mem_map.mp hline
    exact printable_asciiText (mem_fit hbyte)

/-- A frame of as many lines as there are rows shows each of them. -/
theorem frameOf_finalize_full {lines : List Text} {rows : UInt32} (h : lines.length = rows.toNat)
    (columns : UInt32) :
    FrameOf columns rows (finalize lines columns rows) (lines.map (shown columns)) := by
  have hframe := frameOf_finalize lines columns rows
  rw [List.take_of_length_le h.le, h, Nat.sub_self, List.replicate_zero, List.append_nil] at hframe
  exact hframe

/-- A frame takes at most one byte more than the columns for each row. -/
theorem FrameOf.length_le {columns rows : UInt32} {frame : Text} {lines : List Text}
    (h : FrameOf columns rows frame lines) :
    frame.length ≤ rows.toNat * (columns.toNat + 1) := by
  have hsum : (lines.map fun line => (line ++ [newline]).length).sum ≤
      (lines.map fun line => (line ++ [newline]).length).length • (columns.toNat + 1) := by
    refine List.sum_le_card_nsmul _ _ fun n hn => ?_
    obtain ⟨line, hline, rfl⟩ := List.mem_map.mp hn
    rw [List.length_append, List.length_singleton]
    exact Nat.succ_le_succ (h.width line hline)
  rw [h.text, List.length_flatMap]
  rwa [List.length_map, h.count, smul_eq_mul] at hsum

section footed

theorem footed_length {content footer : List Text} {rows : UInt32}
    (h : content.length + footer.length ≤ rows.toNat) :
    (footed content footer rows).length = rows.toNat := by
  unfold footed padBeforeFooter
  rw [List.length_append, List.length_append, List.length_replicate]
  omega

/-- A screen of as many lines as there are rows, with the message and the key hints last. -/
structure ScreenLines (options : RenderOptions) (hints : Text) (lines : List Text) : Prop where
  count : lines.length = options.rows.toNat
  last : ∃ above, lines = above ++ [footerMessage options, hints]

theorem screenLines_footed {options : RenderOptions} {hints : Text} {content : List Text}
    (front : List Text) (h : content.length + (front.length + 2) ≤ options.rows.toNat) :
    ScreenLines options hints
      (footed content (front ++ [footerMessage options, hints]) options.rows) where
  count := by
    refine footed_length ?_
    rw [List.length_append]
    exact h
  last := ⟨_, (List.append_assoc _ front _).symm⟩

end footed

section screens

variable {options : RenderOptions} {lines : List Text}

theorem screenLines_local {snapshot : SnapshotHandle} {info : WorldInfo}
    {entities : List EntityView} (hrows : 24 ≤ options.rows)
    (h : localLines snapshot options info entities = .ok lines) :
    ScreenLines options localHelp lines := by
  obtain ⟨content, hcontent, h⟩ := bind_eq_ok.mp h
  cases h
  obtain ⟨-, hcontent⟩ := failIf_bind_eq_ok.mp hcontent
  obtain ⟨selected, -, hcontent⟩ := bind_eq_ok.mp hcontent
  obtain ⟨glyph, -, hcontent⟩ := bind_eq_ok.mp hcontent
  obtain ⟨mapLines, hmap, hcontent⟩ := bind_eq_ok.mp hcontent
  cases hcontent
  have hheight : mapLines.length = (localView options info.width info.height).viewHeight.toNat := by
    rw [length_of_mapM hmap, List.length_range]
  have hview : (localView options info.width info.height).viewHeight.toNat ≤
      options.rows.toNat - 9 := by
    have hnine : (9 : UInt32) ≤ options.rows :=
      UInt32.le_trans (UInt32.le_iff_toNat_le.mpr (by decide)) hrows
    have hrows9 : (options.rows - 9).toNat = options.rows.toNat - 9 :=
      UInt32.toNat_sub_of_le _ _ hnine
    have hle : min (options.rows - 9) info.height ≤ options.rows - 9 := min_le_left_word _ _
    rw [← hrows9]
    exact UInt32.le_iff_toNat_le.mp hle
  have hrows' : 24 ≤ options.rows.toNat := UInt32.le_iff_toNat_le.mp hrows
  refine screenLines_footed [_, _] ?_
  simp only [List.length_append, List.length_cons, List.length_nil, hheight]
  omega

theorem screenLines_strategic {snapshot : SnapshotHandle} {info : WorldInfo}
    {entities : List EntityView} (hrows : 24 ≤ options.rows)
    (h : strategicLines snapshot options info entities = .ok lines) :
    ScreenLines options strategicHelp lines := by
  obtain ⟨content, hcontent, h⟩ := bind_eq_ok.mp h
  cases h
  obtain ⟨region, -, hcontent⟩ := bind_eq_ok.mp hcontent
  obtain ⟨tiles, -, hcontent⟩ := bind_eq_ok.mp hcontent
  obtain ⟨⟨outlet, roadStart, roadEnd⟩, -, hcontent⟩ := bind_eq_ok.mp hcontent
  obtain ⟨members, hmembers, hcontent⟩ := bind_eq_ok.mp hcontent
  cases hcontent
  have hrows' : 24 ≤ options.rows.toNat := UInt32.le_iff_toNat_le.mp hrows
  have hmembers' : members.length ≤ 2 := by
    rw [length_of_mapM hmembers]
    exact (List.length_take_le' _ _).trans region.settlementIds.toList_length.le
  refine screenLines_footed [_, _] ?_
  have hpresences : (region.foreignFactionIds.toList.take
      (min region.foreignPresenceCount fdU01SeatCount).toNat).length ≤ 2 :=
    (List.length_take_le' _ _).trans region.foreignFactionIds.toList_length.le
  simp only [List.length_append, List.length_cons, List.length_nil, List.length_map]
  omega

theorem screenLines_debugHash {snapshot : SnapshotHandle} (hrows : 24 ≤ options.rows)
    (h : debugHashLines snapshot options = .ok lines) :
    ScreenLines options (asciiBytes "Keys: ? help q quit m map local strategic pass") lines := by
  obtain ⟨info, -, h⟩ := bind_eq_ok.mp h
  cases h
  have hrows' : 24 ≤ options.rows.toNat := UInt32.le_iff_toNat_le.mp hrows
  refine screenLines_footed [_] ?_
  simp only [debugHashContent, List.length_cons, List.length_nil]
  omega

theorem entryContent_length (info : ReplayInfo) (attemptIndex : UInt64) (entry : Entry) :
    (entryContent info attemptIndex entry).length ≤ 12 := by
  cases entry with
  | rejected audit => exact (by decide : 10 ≤ 12)
  | accepted record => exact Nat.le_refl 12

/-- The key hints of the inspector. -/
def inspectorHints : List Text :=
  [asciiBytes "Keys: ? help q quit PgUp/PgDn attempt messages local",
    asciiBytes "Keys: ? help q quit messages local strategic pass"]

theorem screenLines_inspector {replay : ReplayHandle} {attemptIndex : UInt64}
    (hrows : 24 ≤ options.rows) (h : inspectorLines replay attemptIndex options = .ok lines) :
    ∃ hints ∈ inspectorHints, ScreenLines options hints lines := by
  have hrows' : 24 ≤ options.rows.toNat := UInt32.le_iff_toNat_le.mp hrows
  obtain ⟨info, -, h⟩ := bind_eq_ok.mp h
  by_cases hempty : totalAttempts info = 0
  · simp only [if_pos hempty] at h
    obtain ⟨-, h⟩ := failIf_bind_eq_ok.mp h
    cases h
    refine ⟨_, List.mem_cons_of_mem _ List.mem_cons_self, screenLines_footed [_] ?_⟩
    simp only [emptyInspectorContent, List.length_cons, List.length_nil]
    omega
  · simp only [if_neg hempty] at h
    obtain ⟨-, h⟩ := failIf_bind_eq_ok.mp h
    obtain ⟨entry, -, h⟩ := bind_eq_ok.mp h
    cases h
    have hcontent := entryContent_length info attemptIndex entry
    refine ⟨_, List.mem_cons_self, screenLines_footed [_] ?_⟩
    simp only [List.length_cons, List.length_nil]
    omega

/-- The log lists no more attempts than it has room for. -/
theorem logAttempts_length {replay : ReplayHandle} {info : ReplayInfo} {asciiFilter : Text}
    {attempts room : Nat} {attemptIndex : UInt64} {s : LogCursor}
    (h : logAttempts replay info asciiFilter attempts room attemptIndex s = .ok lines) :
    lines.length ≤ room := by
  induction attempts generalizing room attemptIndex s lines with
  | zero =>
      cases h
      exact Nat.zero_le _
  | succ attempts ih =>
      cases room with
      | zero =>
          cases h
          exact Nat.le_refl 0
      | succ room =>
          obtain ⟨⟨line, next⟩, -, h⟩ := bind_eq_ok.mp h
          by_cases hfilter : matchesFilter asciiFilter line
          · simp only [if_pos hfilter] at h
            obtain ⟨rest, hrest, h⟩ := bind_eq_ok.mp h
            cases h
            exact Nat.succ_le_succ (ih hrest)
          · simp only [if_neg hfilter] at h
            exact ih h

theorem screenLines_log {replay : ReplayHandle} {firstRecord : UInt64} {filter : Text}
    (hrows : 24 ≤ options.rows) (h : logLines replay firstRecord options filter = .ok lines) :
    ScreenLines options (asciiBytes "Keys: ? help q quit PgUp/PgDn scroll /text replay local")
      lines := by
  have hrows' : 24 ≤ options.rows.toNat := UInt32.le_iff_toNat_le.mp hrows
  obtain ⟨info, -, h⟩ := bind_eq_ok.mp h
  obtain ⟨-, h⟩ := failIf_bind_eq_ok.mp h
  obtain ⟨listed, hlisted, h⟩ := bind_eq_ok.mp h
  cases h
  obtain ⟨⟨auditIndex, current⟩, -, hlisted⟩ := bind_eq_ok.mp hlisted
  have hroom : listed.length ≤ options.rows.toNat - 3 - 4 := logAttempts_length hlisted
  have hnotice : (logNotice info (asciiText filter) listed).length + listed.length ≤
      options.rows.toNat - 3 - 4 := by
    unfold logNotice
    by_cases hempty : totalAttempts info = 0
    · rw [if_pos hempty, List.length_singleton]
      simp only [hempty, UInt64.toNat_zero, Nat.zero_sub] at hlisted
      cases hlisted
      rw [List.length_nil]
      omega
    · rw [if_neg hempty]
      by_cases hnone : listed = []
      · rw [if_pos hnone, List.length_singleton, hnone, List.length_nil]
        omega
      · rw [if_neg hnone, List.length_nil, Nat.zero_add]
        exact hroom
  refine screenLines_footed [_, _] ?_
  simp only [List.length_append, logHeading, List.length_cons, List.length_nil]
  omega

end screens

theorem renderAscii_eq (snapshot : SnapshotHandle) (options : RenderOptions) :
    renderAscii snapshot options = renderSized options (mapLines snapshot options >>= fun lines =>
      .ok (finalize lines options.columns options.rows)) := by
  unfold renderAscii mapLines
  cases hmode : options.mode with
  | localMap =>
      simp only [bind_assoc]
      rfl
  | strategic =>
      simp only [bind_assoc]
      rfl

/-- The renderer's screens, with what they are asked to show. -/
inductive ScreenCall
  | map (snapshot : SnapshotHandle)
  | debugHash (snapshot : SnapshotHandle)
  | replayInspector (replay : ReplayHandle) (attemptIndex : UInt64)
  | messageLog (replay : ReplayHandle) (firstRecord : UInt64) (filter : Text)

namespace ScreenCall

def render (options : RenderOptions) : ScreenCall → Except Fail Text
  | map snapshot => renderAscii snapshot options
  | debugHash snapshot => renderDebugHashAscii snapshot options
  | replayInspector replay attemptIndex => renderReplayInspectorAscii replay attemptIndex options
  | messageLog replay firstRecord filter => renderMessageLogAscii replay firstRecord options filter

/-- All lines of a screen at a supported size, before they are cut to the terminal. -/
def lines (options : RenderOptions) : ScreenCall → Except Fail (List Text)
  | map snapshot => mapLines snapshot options
  | debugHash snapshot => debugHashLines snapshot options
  | replayInspector replay attemptIndex => inspectorLines replay attemptIndex options
  | messageLog replay firstRecord filter => logLines replay firstRecord options filter

/-- The key hints a screen may end with. -/
def keyHints : ScreenCall → List Text
  | map _ => [localHelp, strategicHelp]
  | debugHash _ => [asciiBytes "Keys: ? help q quit m map local strategic pass"]
  | replayInspector _ _ => inspectorHints
  | messageLog _ _ _ => [asciiBytes "Keys: ? help q quit PgUp/PgDn scroll /text replay local"]

theorem render_eq (options : RenderOptions) (call : ScreenCall) :
    call.render options = renderSized options (call.lines options >>= fun lines =>
      .ok (finalize lines options.columns options.rows)) := by
  cases call with
  | map snapshot => exact renderAscii_eq snapshot options
  | debugHash snapshot => rfl
  | replayInspector replay attemptIndex => rfl
  | messageLog replay firstRecord filter => rfl

/-- At a supported size a screen has as many lines as there are rows, the message and its key hints
last. -/
theorem screenLines {options : RenderOptions} {call : ScreenCall} {lines : List Text}
    (hrows : kMinimumRows ≤ options.rows) (h : call.lines options = .ok lines) :
    ∃ hints ∈ call.keyHints, ScreenLines options hints lines := by
  cases call with
  | map snapshot =>
      obtain ⟨-, h⟩ := failIf_bind_eq_ok.mp h
      obtain ⟨info, -, h⟩ := bind_eq_ok.mp h
      obtain ⟨entities, -, h⟩ := bind_eq_ok.mp h
      cases hmode : options.mode with
      | localMap =>
          simp only [hmode] at h
          exact ⟨_, List.mem_cons_self, screenLines_local hrows h⟩
      | strategic =>
          simp only [hmode] at h
          exact ⟨_, List.mem_cons_of_mem _ List.mem_cons_self, screenLines_strategic hrows h⟩
  | debugHash snapshot => exact ⟨_, List.mem_cons_self, screenLines_debugHash hrows h⟩
  | replayInspector replay attemptIndex => exact screenLines_inspector hrows h
  | messageLog replay firstRecord filter => exact ⟨_, List.mem_cons_self, screenLines_log hrows h⟩

/-- The key hints of all screens. -/
def allKeyHints : List Text :=
  [localHelp, strategicHelp, asciiBytes "Keys: ? help q quit m map local strategic pass",
    asciiBytes "Keys: ? help q quit PgUp/PgDn scroll /text replay local"] ++ inspectorHints

theorem mem_allKeyHints {call : ScreenCall} {hints : Text} (h : hints ∈ call.keyHints) :
    hints ∈ allKeyHints := by
  cases call with
  | map snapshot =>
      simp only [keyHints, List.mem_cons, List.not_mem_nil, or_false] at h
      obtain rfl | rfl := h
      · exact List.mem_cons_self
      · exact List.mem_cons_of_mem _ List.mem_cons_self
  | debugHash snapshot =>
      obtain rfl := List.mem_singleton.mp h
      simp [allKeyHints]
  | replayInspector replay attemptIndex => exact List.mem_append_right _ h
  | messageLog replay firstRecord filter =>
      obtain rfl := List.mem_singleton.mp h
      simp [allKeyHints]

/-- Key hints fit the narrowest supported terminal. -/
theorem shown_keyHints {columns : UInt32} {call : ScreenCall} {hints : Text}
    (hcolumns : kMinimumColumns ≤ columns) (h : hints ∈ call.keyHints) :
    shown columns hints = hints := by
  have hall : ∀ text ∈ allKeyHints, asciiText text = text ∧ text.length ≤ 80 ∧
      text.getLast? ≠ some blank := by decide
  obtain ⟨hascii, hlength, hlast⟩ := hall hints (mem_allKeyHints h)
  rw [shown, hascii]
  exact fit_of_fits (hlength.trans (UInt32.le_iff_toNat_le.mp hcolumns)) hlast

end ScreenCall

end FrontierDirectorate.Terminal
