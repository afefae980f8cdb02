import Mathlib
import FrontierDirectorate.Terminal.ControlLaws
import FrontierDirectorate.Terminal.Frames

/-!
# The cursor on the map

Where the local map draws the selected tile.
-/
namespace FrontierDirectorate.Terminal
open Checks Words

section columns

/-- The left part of a composed line stays where it is. -/
theorem getElem?_composeColumns {left right : Text} {leftWidth totalWidth : UInt32} {i : Nat}
    {byte : UInt8} (h : left[i]? = some byte) (hleft : i < leftWidth.toNat)
    (htotal : i < totalWidth.toNat) (hbyte : byte ≠ blank) :
    (composeColumns left right leftWidth totalWidth)[i]? = some byte := by
  have hfit := getElem?_fit h hleft hbyte
  have hlt : i < (fit left leftWidth).length := (List.getElem?_eq_some_iff.mp hfit).1
  have hpadded : ∀ rest : Text, (fit left leftWidth ++ rest)[i]? = some byte := by
    intro rest
    rw [List.getElem?_append_left hlt]
    exact hfit
  unfold composeColumns
  by_cases hfull : totalWidth.toNat ≤ (fit left leftWidth ++
      fill (leftWidth.toNat - (fit left leftWidth).length) ' ' ++ asciiBytes "  ").length
  · simp only [if_pos hfull]
    refine getElem?_fit ?_ htotal hbyte
    rw [List.append_assoc]
    exact hpadded _
  · simp only [if_neg hfull]
    refine getElem?_fit ?_ htotal hbyte
    rw [List.append_assoc, List.append_assoc]
    exact hpadded _

/-- What is printable and not blank is shown where it is. -/
theorem getElem?_shown {text : Text} {columns : UInt32} {i : Nat} {byte : UInt8}
    (h : text[i]? = some byte) (hi : i < columns.toNat) (hbyte : byte ≠ blank)
    (hprintable : printable byte = true) : (shown columns text)[i]? = some byte := by
  refine getElem?_fit ?_ hi hbyte
  rw [asciiText, List.getElem?_map, h, Option.map_some, if_pos hprintable]

theorem padNumber_length {value : UInt32} (h : value.toNat < 1000) :
    (padNumber value 3).length = 3 := by
  have hdigits : (decimal value.toNat).length ≤ 3 := by
    rw [decimal, List.length_map, Nat.length_toDigits_le_iff (by decide) (by decide)]
    exact h
  unfold padNumber fill
  rw [List.length_append, List.length_replicate]
  have hwidth : (3 : UInt32).toNat = 3 := rfl
  omega

end columns

section cursor

variable {snapshot : SnapshotHandle} {info : WorldInfo} {view : LocalView}

/-- The distance of a word from the origin of the view. -/
theorem offset_toNat {origin selected : UInt32} (h : origin ≤ selected) :
    origin + UInt32.ofNat (selected.toNat - origin.toNat) = selected := by
  have hdistance : UInt32.ofNat (selected.toNat - origin.toNat) = selected - origin := by
    rw [← UInt32.toNat_sub_of_le _ _ h, UInt32.ofNat_toNat]
  rw [hdistance]
  grind

/-- The row of the selected tile has the cursor in its column. -/
theorem localGlyphs_cursor {glyphs : List Char} (hcolumn : view.originX ≤ view.selectedX ∧
      view.selectedX.toNat < view.originX.toNat + view.viewWidth.toNat)
    (hrow : view.originY ≤ view.selectedY)
    (h : localGlyphs snapshot info view (view.selectedY.toNat - view.originY.toNat) = .ok glyphs) :
    glyphs[view.selectedX.toNat - view.originX.toNat]? = some '@' := by
  have hle := UInt32.le_iff_toNat_le.mp hcolumn.1
  have hindex : (List.range view.viewWidth.toNat)[view.selectedX.toNat - view.originX.toNat]? =
      some (view.selectedX.toNat - view.originX.toNat) := by
    rw [List.getElem?_range]
    omega
  obtain ⟨glyph, hglyph, hdraw⟩ := getElem?_of_mapM h hindex
  rw [offset_toNat hcolumn.1, offset_toNat hrow] at hdraw
  obtain ⟨tile, -, hdraw⟩ := bind_eq_ok.mp hdraw
  rw [if_neg (by simp)] at hdraw
  cases hdraw
  exact hglyph

/-- The map line of the selected tile has the cursor behind its prefix. -/
theorem localMapLine_cursor {mapLine : Text} (hcolumn : view.originX ≤ view.selectedX ∧
      view.selectedX.toNat < view.originX.toNat + view.viewWidth.toNat)
    (hrow : view.originY ≤ view.selectedY) (hsmall : view.selectedY.toNat < 1000)
    (h : localMapLine snapshot info view (view.selectedY.toNat - view.originY.toNat) = .ok mapLine) :
    mapLine[5 + (view.selectedX.toNat - view.originX.toNat)]? = some 0x40 := by
  obtain ⟨glyphs, hglyphs, h⟩ := bind_eq_ok.mp h
  cases h
  have hcursor := localGlyphs_cursor hcolumn hrow hglyphs
  have hfront : (padNumber (view.originY +
      UInt32.ofNat (view.selectedY.toNat - view.originY.toNat)) 3 ++ asciiBytes " |").length = 5 := by
    rw [offset_toNat hrow, List.length_append, padNumber_length hsmall]
    rfl
  have hmapped : (glyphs.map fun glyph => glyph.toNat.toUInt8)[view.selectedX.toNat -
      view.originX.toNat]? = some 0x40 := by
    rw [List.getElem?_map, hcursor]
    rfl
  have hlt := (List.getElem?_eq_some_iff.mp hmapped).1
  rw [List.append_assoc, List.getElem?_append_right (by rw [hfront]; omega), hfront,
    Nat.add_sub_cancel_left, List.getElem?_append_left hlt]
  exact hmapped

theorem getElem?_middle {front middle back : List Text} {i : Nat} {text : Text}
    (h : middle[i]? = some text) : (front ++ (middle ++ back))[front.length + i]? = some text := by
  rw [List.getElem?_append_right (Nat.le_add_right _ _), Nat.add_sub_cancel_left,
    List.getElem?_append_left (List.getElem?_eq_some_iff.mp h).1]
  exact h

/-- The widths of a view on a supported terminal. -/
theorem localView_widths {options : RenderOptions} (hcolumns : 80 ≤ options.columns)
    (width height : UInt32) :
    (localView options width height).viewWidth.toNat + 32 ≤ options.columns.toNat ∧
      (localView options width height).leftWidth.toNat =
        (localView options width height).viewWidth.toNat + 6 := by
  have hcolumns' : 80 ≤ options.columns.toNat := UInt32.le_iff_toNat_le.mp hcolumns
  have hinspector : 32 ≤ options.columns :=
    UInt32.le_trans (UInt32.le_iff_toNat_le.mpr (by decide)) hcolumns
  have hmap : (options.columns - 32).toNat = options.columns.toNat - 32 :=
    UInt32.toNat_sub_of_le _ _ hinspector
  have hwidth : (localView options width height).viewWidth.toNat ≤ options.columns.toNat - 32 := by
    rw [← hmap, ← availableMap_eq]
    exact UInt32.le_iff_toNat_le.mp (min_le_left_word _ _)
  have hlt := options.columns.toNat_lt
  have hleft : (localView options width height).leftWidth =
      kMapPrefixWidth + 1 + (localView options width height).viewWidth + 1 := rfl
  have hfour : kMapPrefixWidth.toNat = 4 := rfl
  have hone : (1 : UInt32).toNat = 1 := rfl
  refine ⟨by omega, ?_⟩
  rw [hleft, UInt32.toNat_add, UInt32.toNat_add, UInt32.toNat_add, hfour, hone]
  omega

/-- The local map draws the cursor at the selected tile. -/
theorem localLines_cursor {options : RenderOptions} {entities : List EntityView}
    {lines : List Text} (hcolumns : 80 ≤ options.columns) (hheight : info.height.toNat ≤ 1000)
    (hview : (localView options info.width info.height).Shows info.width info.height)
    (h : localLines snapshot options info entities = .ok lines) :
    ∃ text, lines[4 + ((localView options info.width info.height).selectedY.toNat -
        (localView options info.width info.height).originY.toNat)]? = some text ∧
      (shown options.columns text)[5 + ((localView options info.width info.height).selectedX.toNat -
        (localView options info.width info.height).originX.toNat)]? = some 0x40 := by
  obtain ⟨content, hcontent, h⟩ := bind_eq_ok.mp h
  cases h
  obtain ⟨-, hcontent⟩ := failIf_bind_eq_ok.mp hcontent
  obtain ⟨hwide, hleft⟩ := localView_widths hcolumns info.width info.height
  generalize localView options info.width info.height = view at *
  obtain ⟨selected, -, hcontent⟩ := bind_eq_ok.mp hcontent
  obtain ⟨glyph, -, hcontent⟩ := bind_eq_ok.mp hcontent
  obtain ⟨mapLines, hmap, hcontent⟩ := bind_eq_ok.mp hcontent
  cases hcontent
  have htop := UInt32.le_iff_toNat_le.mp hview.row.1
  have hstart := UInt32.le_iff_toNat_le.mp hview.column.1
  have hbottom := hview.row.2
  have hright := hview.column.2
  have hrows := hview.rows
  have hindex : (List.range view.viewHeight.toNat)[view.selectedY.toNat - view.originY.toNat]? =
      some (view.selectedY.toNat - view.originY.toNat) := by
    rw [List.getElem?_range]
    omega
  obtain ⟨text, htext, hline⟩ := getElem?_of_mapM hmap hindex
  obtain ⟨mapLine, hmapLine, hline⟩ := bind_eq_ok.mp hline
  have hcomposed := Except.ok.inj hline
  have hcursor := localMapLine_cursor hview.column hview.row.1 (by omega) hmapLine
  refine ⟨text, ?_, ?_⟩
  · rw [footed, padBeforeFooter, List.append_assoc, List.append_assoc, List.append_assoc]
    exact getElem?_middle htext
  · rw [← hcomposed]
    refine getElem?_shown (getElem?_composeColumns hcursor ?_ ?_ (by decide)) ?_ (by decide)
      (by decide)
    · omega
    · omega
    · omega

end cursor

end FrontierDirectorate.Terminal
