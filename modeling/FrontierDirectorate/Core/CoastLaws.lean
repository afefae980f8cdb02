import Mathlib
import FrontierDirectorate.Lib.Checks
import FrontierDirectorate.Core.Grid
import FrontierDirectorate.Core.Invariants

/-!
# The coast check

Each row of land is one interval and overlaps the row above; the land tiles are
then connected row by row.
-/
namespace FrontierDirectorate
open Checks

section rows

variable {land : Nat → Bool}

/-- The scan of a row after `count` columns. -/
structure RowScan.Covers (s : RowScan) (land : Nat → Bool) (count : Nat) : Prop where
  before : s.sawLand = false → s.gapAfterLand = false ∧ ∀ x < count, land x = false
  interval : s.sawLand = true → s.start ≤ s.stop ∧ s.stop < count ∧
    ∀ x < count, land x = true ↔ s.start ≤ x ∧ x ≤ s.stop
  noGap : s.sawLand = true → s.gapAfterLand = false → s.stop + 1 = count

/-- One column keeps the interval. -/
theorem RowScan.Covers.step {s t : RowScan} {count : Nat} (h : s.Covers land count)
    (hstep : rowScanStep land s count = some t) : t.Covers land (count + 1) := by
  obtain ⟨start, stop, sawLand, gap⟩ := s
  have hbefore := h.before
  have hinterval := h.interval
  have hnoGap := h.noGap
  simp only at hbefore hinterval hnoGap
  unfold rowScanStep at hstep
  by_cases hland : land count
  · rw [if_pos hland] at hstep
    cases gap with
    | true => cases hstep
    | false =>
        cases hstep
        cases sawLand with
        | false =>
            obtain ⟨-, hnone⟩ := hbefore rfl
            refine ⟨fun hsaw => (Bool.noConfusion hsaw), fun _ => ⟨le_rfl, count.lt_succ_self, ?_⟩,
              fun _ _ => rfl⟩
            intro x hx
            rcases Nat.lt_succ_iff_lt_or_eq.mp hx with hlt | rfl
            · simp only [hnone x hlt, Bool.false_eq_true, if_false, false_iff]
              omega
            · simp [hland]
        | true =>
            obtain ⟨hle, hlt, hall⟩ := hinterval rfl
            have hend := hnoGap rfl rfl
            refine ⟨fun hsaw => (Bool.noConfusion hsaw),
              fun _ => ⟨?_, count.lt_succ_self, ?_⟩, fun _ _ => rfl⟩
            · simp only [if_true]
              omega
            · intro x hx
              rcases Nat.lt_succ_iff_lt_or_eq.mp hx with hlt | rfl
              · rw [hall x hlt]
                simp only [if_true]
                omega
              · simp only [hland, if_true, true_iff]
                omega
  · rw [if_neg hland] at hstep
    cases hstep
    rw [Bool.not_eq_true] at hland
    refine ⟨?_, ?_, ?_⟩
    · intro hsaw
      obtain ⟨hgap, hnone⟩ := hbefore hsaw
      have hsaw' : sawLand = false := hsaw
      refine ⟨by simp only [hsaw', hgap, Bool.or_self], ?_⟩
      intro x hx
      rcases Nat.lt_succ_iff_lt_or_eq.mp hx with hlt | rfl
      · exact hnone x hlt
      · exact hland
    · intro hsaw
      obtain ⟨hle, hlt, hall⟩ := hinterval hsaw
      refine ⟨hle, Nat.lt_succ_of_lt hlt, ?_⟩
      intro x hx
      rcases Nat.lt_succ_iff_lt_or_eq.mp hx with hlt' | rfl
      · exact hall x hlt'
      · simp only [hland, Bool.false_eq_true, false_iff]
        omega
    · intro hsaw hgap
      have hsaw' : sawLand = true := hsaw
      simp [hsaw'] at hgap

/-- A row that passes the scan is one interval of land. -/
theorem scanRow_covers {width : Nat} {row : RowScan} (h : scanRow width land = some row) :
    row.Covers land width := by
  have prefixes : ∀ count row, (List.range count).foldlM (rowScanStep land)
      ⟨width, 0, false, false⟩ = some row → row.Covers land count := by
    intro count
    induction count with
    | zero =>
        intro row hrow
        cases hrow
        exact ⟨fun _ => ⟨rfl, fun x hx => absurd hx (Nat.not_lt_zero x)⟩,
          fun hsaw => Bool.noConfusion hsaw, fun hsaw => Bool.noConfusion hsaw⟩
    | succ count ih =>
        intro row hrow
        rw [List.range_succ, List.foldlM_append] at hrow
        obtain ⟨s, hs, hstep⟩ := Option.bind_eq_some_iff.mp hrow
        rw [List.foldlM_cons] at hstep
        obtain ⟨t, ht, hend⟩ := Option.bind_eq_some_iff.mp hstep
        cases hend
        exact (ih s hs).step ht
  exact prefixes width row h

end rows

namespace World

variable (world : World)

/-- A tile of the map that is not water. -/
def Land (index : Nat) : Prop :=
  index < world.tileCount ∧ world.terrain index ≠ fdTerrainWater

/-- Two land tiles joined over land. -/
def LandPath : Nat → Nat → Prop := Relation.ReflTransGen fun index next =>
  world.Land index ∧ world.Land next ∧ world.Adjacent index next

/-- The number of land tiles. -/
def landTiles : Nat :=
  ((List.range world.tileCount).filter (world.terrain · != fdTerrainWater)).length

end World

section paths

variable {world : World}

theorem World.LandPath.symm {index next : Nat} (h : world.LandPath index next) :
    world.LandPath next index := by
  induction h with
  | refl => exact .refl
  | tail _ hstep ih =>
      obtain ⟨ha, hb, hadjacent⟩ := hstep
      exact .head ⟨hb, ha, hadjacent.symm⟩ ih

theorem land_iff (hbounds : world.boundsHold) {x y : Nat} (hx : x < world.width)
    (hy : y < world.height) : world.Land (y * world.width + x) ↔
      (world.terrain (y * world.width + x) != fdTerrainWater) = true := by
  rw [bne_iff_ne]
  unfold World.Land
  rw [hbounds.tileCount_eq]
  exact and_iff_right (index_lt hx hy)

theorem adjacent_right {x y : Nat} (hx : x + 1 < world.width) :
    world.Adjacent (y * world.width + x) (y * world.width + (x + 1)) := by
  obtain ⟨hc, hr⟩ := column_row (y := y) (Nat.lt_of_succ_lt hx)
  obtain ⟨hc', hr'⟩ := column_row (y := y) hx
  unfold World.Adjacent Adjacent
  rw [hc, hr, hc', hr']
  exact fdManhattan_eq_one_iff.mpr (.inl ⟨rfl, .inl rfl⟩)

theorem adjacent_below {x y : Nat} (hx : x < world.width) :
    world.Adjacent (y * world.width + x) ((y + 1) * world.width + x) := by
  obtain ⟨hc, hr⟩ := column_row (y := y) hx
  obtain ⟨hc', hr'⟩ := column_row (y := y + 1) hx
  unfold World.Adjacent Adjacent
  rw [hc, hr, hc', hr']
  exact fdManhattan_eq_one_iff.mpr (.inr ⟨rfl, .inl rfl⟩)

/-- Along a stretch of land in one row. -/
theorem landPath_row {y start stop : Nat} (hstop : stop < world.width)
    (hland : ∀ x, start ≤ x → x ≤ stop → world.Land (y * world.width + x)) {x : Nat}
    (hstart : start ≤ x) (hx : x ≤ stop) :
    world.LandPath (y * world.width + start) (y * world.width + x) := by
  induction x, hstart using Nat.le_induction with
  | base => exact .refl
  | succ x hstart ih =>
      apply (ih (Nat.le_of_succ_le hx)).tail
      exact ⟨hland x hstart (Nat.le_of_succ_le hx), hland (x + 1) (Nat.le_succ_of_le hstart) hx,
        adjacent_right (Nat.lt_of_le_of_lt hx hstop)⟩

/-- The row just scanned, `previous` its land interval, and the land above it all in reach. -/
structure CoastRows (world : World) (rows : Nat) (previous : Nat × Nat) : Prop where
  nonempty : previous.1 ≤ previous.2
  onMap : previous.2 < world.width
  land : ∀ x < world.width, world.Land (rows * world.width + x) ↔
    previous.1 ≤ x ∧ x ≤ previous.2
  joined : ∀ y ≤ rows, ∀ x < world.width, world.Land (y * world.width + x) →
    world.LandPath (y * world.width + x) (rows * world.width + previous.1)

/-- What a row that passes says. -/
theorem coastRowStep_eq_some (hbounds : world.boundsHold) {y : Nat} (hy : y < world.height)
    {previous next : Nat × Nat} (h : coastRowStep world previous y = some next) :
    next.1 ≤ next.2 ∧ next.2 < world.width ∧
      (∀ x < world.width, world.Land (y * world.width + x) ↔ next.1 ≤ x ∧ x ≤ next.2) ∧
      (0 < y → previous.1 ≤ next.2 ∧ next.1 ≤ previous.2) := by
  obtain ⟨row, hrow, hrest⟩ := Option.bind_eq_some_iff.mp h
  have hcovers := scanRow_covers hrow
  split at hrest
  · cases hrest
  · next hsaw =>
      have hsaw' : row.sawLand = true := by simpa using hsaw
      obtain ⟨hle, hlt, hall⟩ := hcovers.interval hsaw'
      split at hrest
      · cases hrest
      · next hoverlap =>
          cases hrest
          refine ⟨hle, hlt, ?_, ?_⟩
          · intro x hx
            rw [land_iff hbounds hx hy]
            exact hall x hx
          · intro hpos
            by_contra hapart
            exact hoverlap ⟨hpos, by omega⟩

/-- The first row. -/
theorem coastRows_first (hbounds : world.boundsHold) (hheight : 0 < world.height)
    {previous next : Nat × Nat} (h : coastRowStep world previous 0 = some next) :
    CoastRows world 0 next := by
  obtain ⟨hle, hlt, hall, -⟩ := coastRowStep_eq_some hbounds hheight h
  refine ⟨hle, hlt, hall, ?_⟩
  intro y hy x hx hland
  obtain rfl := Nat.le_zero.mp hy
  obtain ⟨hstart, hstop⟩ := (hall x hx).mp hland
  apply World.LandPath.symm
  apply landPath_row hlt _ hstart hstop
  intro x' hstart' hstop'
  exact (hall x' (Nat.lt_of_le_of_lt hstop' hlt)).mpr ⟨hstart', hstop'⟩

/-- The next row hangs on the one above where the two intervals overlap. -/
theorem CoastRows.step (hbounds : world.boundsHold) {y : Nat} (hy : y + 1 < world.height)
    {previous next : Nat × Nat} (hrows : CoastRows world y previous)
    (h : coastRowStep world previous (y + 1) = some next) : CoastRows world (y + 1) next := by
  obtain ⟨hle, hlt, hall, hoverlap⟩ := coastRowStep_eq_some hbounds hy h
  obtain ⟨hleft, hright⟩ := hoverlap (Nat.succ_pos y)
  have hrow : ∀ x, next.1 ≤ x → x ≤ next.2 → world.Land ((y + 1) * world.width + x) := by
    intro x hstart hstop
    exact (hall x (Nat.lt_of_le_of_lt hstop hlt)).mpr ⟨hstart, hstop⟩
  have habove : ∀ x, previous.1 ≤ x → x ≤ previous.2 → world.Land (y * world.width + x) := by
    intro x hstart hstop
    exact (hrows.land x (Nat.lt_of_le_of_lt hstop hrows.onMap)).mpr ⟨hstart, hstop⟩
  -- a column of both intervals
  obtain ⟨x, hx⟩ : ∃ x, (previous.1 ≤ x ∧ x ≤ previous.2) ∧ next.1 ≤ x ∧ x ≤ next.2 :=
    ⟨max previous.1 next.1, by have := hrows.nonempty; omega⟩
  have hdown : world.LandPath (y * world.width + previous.1)
      ((y + 1) * world.width + next.1) := by
    apply Relation.ReflTransGen.trans (landPath_row hrows.onMap habove hx.1.1 hx.1.2)
    apply Relation.ReflTransGen.head
      ⟨habove x hx.1.1 hx.1.2, hrow x hx.2.1 hx.2.2, adjacent_below (Nat.lt_of_le_of_lt hx.2.2 hlt)⟩
    exact (landPath_row hlt hrow hx.2.1 hx.2.2).symm
  refine ⟨hle, hlt, hall, ?_⟩
  intro y' hy' x' hx' hland
  rcases Nat.lt_succ_iff_lt_or_eq.mp (Nat.lt_succ_of_le hy') with hlt' | rfl
  · exact (hrows.joined y' (Nat.le_of_lt_succ hlt') x' hx' hland).trans hdown
  · obtain ⟨hstart, hstop⟩ := (hall x' hx').mp hland
    exact (landPath_row hlt hrow hstart hstop).symm

/-- All rows passed. -/
theorem coastRows_of_fold (hbounds : world.boundsHold) {rows : Nat} (hrows : rows < world.height)
    {last : Nat × Nat}
    (h : (List.range (rows + 1)).foldlM (coastRowStep world) (0, 0) = some last) :
    CoastRows world rows last := by
  induction rows generalizing last with
  | zero =>
      obtain ⟨next, hnext, hend⟩ := Option.bind_eq_some_iff.mp h
      cases hend
      exact coastRows_first hbounds hrows hnext
  | succ rows ih =>
      rw [List.range_succ, List.foldlM_append] at h
      obtain ⟨previous, hprevious, hrest⟩ := Option.bind_eq_some_iff.mp h
      rw [List.foldlM_cons] at hrest
      obtain ⟨next, hnext, hend⟩ := Option.bind_eq_some_iff.mp hrest
      cases hend
      exact (ih (Nat.lt_of_succ_lt hrows) hprevious).step hbounds hrows hnext

/-- A map that passes the coast check is one landmass of the right size. -/
theorem landPath_of_coast (hbounds : world.boundsHold) {landCount : Nat}
    (h : fdValidateCoastLand world landCount = true) :
    (world.tileCount * 55 ≤ landCount * 100 ∧ landCount * 100 ≤ world.tileCount * 80) ∧
      ∀ a b, world.Land a → world.Land b → world.LandPath a b := by
  simp only [fdValidateCoastLand] at h
  split at h
  · cases h
  · next hratio =>
      refine ⟨by omega, ?_⟩
      intro a b ha hb
      obtain ⟨last, hlast⟩ := Option.isSome_iff_exists.mp h
      have hsize := hbounds.tileCount_eq
      have hheight : 0 < world.height := by
        have hrow := row_lt (hsize ▸ ha.1)
        exact Nat.zero_lt_of_lt hrow
      obtain ⟨rows, hrows⟩ : ∃ rows, world.height = rows + 1 := ⟨world.height - 1, by omega⟩
      rw [hrows] at hlast
      have hjoined := (coastRows_of_fold hbounds (hrows ▸ Nat.lt_succ_self rows) hlast).joined
      have hreach : ∀ c, world.Land c →
          world.LandPath c (rows * world.width + last.1) := by
        intro c hc
        have hrow := row_lt (hsize ▸ hc.1)
        have hcolumn := column_lt (hsize ▸ hc.1)
        rw [hrows] at hrow
        have hpath := hjoined (c / world.width) (Nat.le_of_lt_succ hrow) (c % world.width) hcolumn
        rw [index_eq] at hpath
        exact hpath hc
      exact (hreach a ha).trans (hreach b hb).symm

/-- The land count of the tile pass. -/
theorem scanTiles_land (world : World) : (scanTiles world).land = world.landTiles := by
  have hland : (scanTiles world).land = (List.range world.tileCount).foldl (fun n index =>
      if world.terrain index != fdTerrainWater then n + 1 else n) 0 := by
    apply (List.foldl_hom TileScan.land _).symm
    intro s index
    by_cases hwater : (world.tile index).terrain = fdTerrainWater
    · simp [tileScanStep, World.terrain, hwater]
    · simp [tileScanStep, World.terrain, hwater]
  rw [hland, foldl_count (world.terrain · != fdTerrainWater), Nat.zero_add]
  rfl

/-- Both settlement tiles of a map that passes the settlement check are land. -/
theorem settlements_ground (hbounds : world.boundsHold) {outlet : Nat}
    (h : fdValidateSettlements world outlet = true) :
    world.Land world.coastalIndex ∧ world.Land world.inlandIndex := by
  simp only [fdValidateSettlements] at h
  split at h
  · cases h
  · next hkinds =>
      split at h
      · cases h
      · next hplaces =>
          have hmap : world.settlementsOnMap = true := by
            by_contra hoff
            exact hkinds (.inr (.inr hoff))
          simp only [World.settlementsOnMap, Bool.and_eq_true, decide_eq_true_eq] at hmap
          obtain ⟨⟨⟨hcx, hcy⟩, hix⟩, hiy⟩ := hmap
          simp only [not_or, ne_eq, not_not] at hplaces
          have hground : ∀ terrain, terrain = fdTerrainSettlement → terrain ≠ fdTerrainWater := by
            rintro _ rfl
            decide
          unfold World.Land
          rw [hbounds.tileCount_eq]
          exact ⟨⟨index_lt hcx hcy, hground _ hplaces.1⟩, index_lt hix hiy,
            hground _ hplaces.2.2.1⟩

end paths

end FrontierDirectorate
