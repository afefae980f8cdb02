import Mathlib
import FrontierDirectorate.Core.CoastLaws
import FrontierDirectorate.Core.Road
import FrontierDirectorate.Lib.ShortestPath

/-!
# The trace of the road

The road bits along the way back from the goal, up to the second river tile.
-/
namespace FrontierDirectorate
open ShortestPath

/-- Setting one overlay bit of a tile. -/
def World.addOverlay (world : World) (bit : UInt32) (index : Nat) : World :=
  world.modifyTile index fun tile => { tile with overlays := tile.overlays ||| bit }

/-- Setting it along a path. -/
def World.addOverlays (world : World) (bit : UInt32) (path : List Nat) : World :=
  path.foldl (World.addOverlay · bit ·) world

section marks

variable {world : World} {bit overlay : UInt32} {index near : Nat}

theorem or_and_word (a b c : UInt32) : (a ||| b) &&& c = (a &&& c) ||| (b &&& c) :=
  UInt32.toBitVec_inj.mp BitVec.and_or_distrib_right

/-- A mask that leaves the bit out. -/
theorem or_and_of_disjoint {a : UInt32} (h : bit &&& overlay = 0) :
    (a ||| bit) &&& overlay = a &&& overlay := by
  rw [or_and_word, h, UInt32.or_zero]

theorem tile_addOverlay_self (h : index < world.tileCount) :
    (world.addOverlay bit index).tile index =
      { world.tile index with overlays := (world.tile index).overlays ||| bit } := by
  simp only [World.tile, World.addOverlay, World.modifyTile, List.getD_eq_getElem?_getD,
    List.getElem?_modify_eq, List.getElem?_eq_getElem h, Option.map_eq_map, Option.map_some,
    Option.getD_some]

theorem tile_addOverlay_of_ne (h : near ≠ index) :
    (world.addOverlay bit index).tile near = world.tile near := by
  simp only [World.tile, World.addOverlay, World.modifyTile, List.getD_eq_getElem?_getD,
    List.getElem?_modify_ne _ _ h.symm]

@[simp] theorem tileCount_addOverlay : (world.addOverlay bit index).tileCount = world.tileCount :=
  List.length_modify _ _ _

/-- A tile off the map has no bits to set. -/
theorem addOverlay_of_not_lt (h : ¬ index < world.tileCount) :
    world.addOverlay bit index = world := by
  have htiles : world.tiles.modify index
      (fun tile => { tile with overlays := tile.overlays ||| bit }) = world.tiles :=
    List.modify_eq_self (Nat.not_lt.mp h)
  exact congrArg (fun tiles => { world with tiles := tiles }) htiles

/-- Every tile keeps the bits of a mask that leaves out the one that is set. -/
theorem overlays_addOverlay (h : bit &&& overlay = 0) :
    ((world.addOverlay bit index).tile near).overlays &&& overlay =
      (world.tile near).overlays &&& overlay := by
  by_cases hne : near = index
  · subst hne
    by_cases hlt : near < world.tileCount
    · rw [tile_addOverlay_self hlt]
      exact or_and_of_disjoint h
    · rw [addOverlay_of_not_lt hlt]
  · rw [tile_addOverlay_of_ne hne]

theorem hasOverlay_addOverlay_self (hindex : index < world.tileCount) (hbit : bit ≠ 0) :
    (world.addOverlay bit index).hasOverlay near bit = true ↔
      near = index ∨ world.hasOverlay near bit = true := by
  by_cases hne : near = index
  · subst hne
    refine iff_of_true ?_ (.inl rfl)
    rw [World.hasOverlay, tile_addOverlay_self hindex, bne_iff_ne]
    intro hzero
    rw [or_and_word, UInt32.and_self, UInt32.or_eq_zero_iff] at hzero
    exact hbit hzero.2
  · rw [or_iff_right hne, World.hasOverlay, tile_addOverlay_of_ne hne, World.hasOverlay]

/-- Along a path, the tiles of the path carry the bit afterwards. -/
theorem hasOverlay_addOverlays {path : List Nat} (hpath : ∀ i ∈ path, i < world.tileCount)
    (hbit : bit ≠ 0) : (world.addOverlays bit path).hasOverlay near bit = true ↔
      near ∈ path ∨ world.hasOverlay near bit = true := by
  induction path generalizing world with
  | nil => exact (or_iff_right List.not_mem_nil).symm
  | cons first path ih =>
      have hfirst := hpath first List.mem_cons_self
      have hrest : ∀ i ∈ path, i < (world.addOverlay bit first).tileCount := by
        intro i hi
        rw [tileCount_addOverlay]
        exact hpath i (List.mem_cons_of_mem first hi)
      refine (ih hrest).trans ?_
      rw [hasOverlay_addOverlay_self hfirst hbit, List.mem_cons, ← or_assoc,
        or_comm (a := near ∈ path)]

/-- Everything but the bit is as before. -/
structure World.SameBut (world changed : World) (mask : UInt32) : Prop where
  overlays : ∀ index, (changed.tile index).overlays &&& mask = (world.tile index).overlays &&& mask
  tile : ∀ index, changed.tile index =
    { world.tile index with overlays := (changed.tile index).overlays }
  tileCount : changed.tileCount = world.tileCount
  rest : changed = { world with tiles := changed.tiles }

theorem World.SameBut.refl (world : World) (mask : UInt32) : world.SameBut world mask :=
  ⟨fun _ => rfl, fun _ => rfl, rfl, rfl⟩

theorem World.SameBut.trans {v w u : World} {mask : UInt32} (h : u.SameBut v mask)
    (h' : v.SameBut w mask) : u.SameBut w mask where
  overlays := fun index => (h'.overlays index).trans (h.overlays index)
  tile := by
    intro index
    rw [h'.tile index, h.tile index]
  tileCount := h'.tileCount.trans h.tileCount
  rest := by
    rw [h'.rest, h.rest]

theorem sameBut_addOverlay (h : bit &&& overlay = 0) :
    world.SameBut (world.addOverlay bit index) overlay where
  overlays := fun _ => overlays_addOverlay h
  tile := by
    intro near
    by_cases hne : near = index
    · subst hne
      by_cases hlt : near < world.tileCount
      · rw [tile_addOverlay_self hlt]
      · rw [addOverlay_of_not_lt hlt]
    · rw [tile_addOverlay_of_ne hne]
  tileCount := tileCount_addOverlay
  rest := rfl

theorem sameBut_addOverlays (h : bit &&& overlay = 0) (path : List Nat) :
    world.SameBut (world.addOverlays bit path) overlay := by
  induction path generalizing world with
  | nil => exact .refl world overlay
  | cons first path ih => exact (sameBut_addOverlay h).trans ih

theorem World.SameBut.hasOverlay {changed : World} (h : world.SameBut changed overlay) :
    changed.hasOverlay near overlay = world.hasOverlay near overlay := by
  rw [World.hasOverlay, h.overlays, World.hasOverlay]

end marks

section trace

variable {previous : Nat → Nat} {start current : Nat} {path : List Nat}

/-- The river tiles of a path. -/
def World.rivers (world : World) (path : List Nat) : List Nat :=
  path.filter (world.hasOverlay · fdTileOverlayRiver)

theorem rivers_addOverlay (world : World) (index : Nat) (path : List Nat) :
    (world.addOverlay fdTileOverlayRoadCandidate index).rivers path = world.rivers path :=
  congrArg path.filter (funext fun near => (sameBut_addOverlay (by decide)).hasOverlay)

/-- How many river tiles the trace has met. -/
def crossed (intersection : Nat) : Nat := if intersection = uint32Max then 0 else 1

theorem traceRoad_eq (world : World) (left count intersection : Nat) :
    traceRoad previous start left world current count intersection =
      if world.hasOverlay current fdTileOverlayRiver ∧ intersection ≠ uint32Max then
        .error ⟨world.addOverlay fdTileOverlayRoadCandidate current, fdErrGenerationExhausted⟩
      else if current = start then
        .ok (world.addOverlay fdTileOverlayRoadCandidate current, count + 1,
          if world.hasOverlay current fdTileOverlayRiver then current else intersection)
      else if previous current = uint32Max then
        .error ⟨world.addOverlay fdTileOverlayRoadCandidate current, fdErrInternal⟩
      else
        match left with
        | 0 => .error ⟨world.addOverlay fdTileOverlayRoadCandidate current, fdErrInternal⟩
        | left + 1 => traceRoad previous start left
            (world.addOverlay fdTileOverlayRoadCandidate current) (previous current) (count + 1)
            (if world.hasOverlay current fdTileOverlayRiver then current else intersection) := by
  have hriver : (world.addOverlay fdTileOverlayRoadCandidate current).hasOverlay current
      fdTileOverlayRiver = world.hasOverlay current fdTileOverlayRiver :=
    (sameBut_addOverlay (by decide)).hasOverlay
  unfold World.addOverlay at hriver ⊢
  rw [traceRoad]
  cases left with
  | zero => simp only [hriver]
  | succ left => simp only [hriver]

/-- The river tile the trace has met once it has been at `index`. -/
def World.met (world : World) (index intersection : Nat) : Nat :=
  if world.hasOverlay index fdTileOverlayRiver then index else intersection

section river

variable {world : World} {index intersection : Nat}

theorem rivers_cons_of_river (h : world.hasOverlay index fdTileOverlayRiver = true) :
    world.rivers (index :: path) = index :: world.rivers path := List.filter_cons_of_pos h

theorem rivers_cons_of_dry (h : ¬ world.hasOverlay index fdTileOverlayRiver = true) :
    world.rivers (index :: path) = world.rivers path := List.filter_cons_of_neg h

/-- Met and left together do not change from tile to tile. -/
theorem crossed_met (hindex : index ≠ uint32Max)
    (hfree : ¬ (world.hasOverlay index fdTileOverlayRiver = true ∧ intersection ≠ uint32Max)) :
    crossed (world.met index intersection) + (world.rivers path).length =
      crossed intersection + (world.rivers (index :: path)).length := by
  by_cases hriver : world.hasOverlay index fdTileOverlayRiver = true
  · obtain rfl : intersection = uint32Max := not_not.mp fun hne => hfree ⟨hriver, hne⟩
    have hone : crossed index = 1 := if_neg hindex
    have hzero : crossed uint32Max = 0 := if_pos rfl
    rw [World.met, if_pos hriver, rivers_cons_of_river hriver, List.length_cons, hone, hzero]
    omega
  · rw [World.met, if_neg hriver, rivers_cons_of_dry hriver]

theorem not_second (hrivers : crossed intersection + (world.rivers (index :: path)).length ≤ 1) :
    ¬ (world.hasOverlay index fdTileOverlayRiver = true ∧ intersection ≠ uint32Max) := by
  rintro ⟨hriver, hne⟩
  rw [rivers_cons_of_river hriver, List.length_cons, crossed, if_neg hne] at hrivers
  omega

theorem headD_met (intersection : Nat) (hrivers : (world.rivers (index :: path)).length ≤ 1) :
    (world.rivers path).headD (world.met index intersection) =
      (world.rivers (index :: path)).headD intersection := by
  by_cases hriver : world.hasOverlay index fdTileOverlayRiver = true
  · rw [rivers_cons_of_river hriver] at hrivers ⊢
    have hnil : world.rivers path = [] := List.length_eq_zero_iff.mp (by simpa using hrivers)
    rw [hnil, World.met, if_pos hriver]
    rfl
  · rw [World.met, if_neg hriver, rivers_cons_of_dry hriver]

end river

/-- The trace goes on behind a tile that is neither a second river tile nor the start. -/
theorem traceRoad_later (world : World) {left count intersection : Nat} (later : current ≠ start)
    (hprevious : previous current ≠ uint32Max)
    (hfree : ¬ (world.hasOverlay current fdTileOverlayRiver = true ∧ intersection ≠ uint32Max)) :
    traceRoad previous start (left + 1) world current count intersection =
      traceRoad previous start left (world.addOverlay fdTileOverlayRoadCandidate current)
        (previous current) (count + 1) (world.met current intersection) := by
  rw [traceRoad_eq, if_neg hfree, if_neg later, if_neg hprevious]
  rfl

/-- A path with a single river tile at most is traced to its end. -/
theorem traceRoad_ok (h : Traced previous start current path) (hpath : ∀ i ∈ path, i ≠ uint32Max)
    (world : World) {left intersection : Nat} (count : Nat) (hleft : path.length ≤ left + 1)
    (hrivers : crossed intersection + (world.rivers path).length ≤ 1) :
    traceRoad previous start left world current count intersection =
      .ok (world.addOverlays fdTileOverlayRoadCandidate path, count + path.length,
        (world.rivers path).headD intersection) := by
  induction h generalizing world left count intersection with
  | start =>
      have hhead := headD_met intersection ((Nat.le_add_left _ _).trans hrivers)
      rw [traceRoad_eq, if_neg (not_second hrivers), if_pos rfl, ← hhead]
      rfl
  | @step current path later rest ih =>
      have hfree := not_second hrivers
      have hhead := headD_met intersection ((Nat.le_add_left _ _).trans hrivers)
      have hprevious := hpath _ (List.mem_cons_of_mem current rest.mem)
      have hlength := List.length_pos_of_mem rest.mem
      obtain ⟨left, rfl⟩ : ∃ fewer, left = fewer + 1 :=
        Nat.exists_eq_add_one.mpr (hlength.trans_le (Nat.le_of_succ_le_succ hleft))
      rw [traceRoad_later world later hprevious hfree]
      rw [← crossed_met (hpath current List.mem_cons_self) hfree,
        ← rivers_addOverlay world current] at hrivers
      rw [ih (fun i hi => hpath i (List.mem_cons_of_mem current hi)) _ (count + 1)
        (Nat.le_of_succ_le_succ hleft) hrivers, rivers_addOverlay, hhead, List.length_cons,
        Nat.add_right_comm, Nat.add_assoc count]
      rfl

/-- A part of the path that ends with its second river tile, if `met` of them are behind the
trace already. -/
structure World.UpToSecond (world : World) (met : Nat) (path traced : List Nat) : Prop where
  prefixed : traced <+: path
  last : ∃ before second, traced = before ++ [second] ∧
    world.hasOverlay second fdTileOverlayRiver = true ∧ met + (world.rivers before).length = 1

/-- At the second river tile the trace stops. -/
theorem traceRoad_second (world : World) {left count intersection : Nat} {tail : List Nat}
    (hsecond : world.hasOverlay current fdTileOverlayRiver = true ∧ intersection ≠ uint32Max) :
    ∃ traced, world.UpToSecond (crossed intersection) (current :: tail) traced ∧
      traceRoad previous start left world current count intersection =
        .error ⟨world.addOverlays fdTileOverlayRoadCandidate traced, fdErrGenerationExhausted⟩ := by
  refine ⟨[current], ⟨⟨tail, rfl⟩, [], current, rfl, hsecond.1, ?_⟩, ?_⟩
  · rw [crossed, if_neg hsecond.2]
    rfl
  · rw [traceRoad_eq, if_pos hsecond]
    rfl

/-- A path with more river tiles is traced up to the second. -/
theorem traceRoad_exhausted (h : Traced previous start current path)
    (hpath : ∀ i ∈ path, i ≠ uint32Max) (world : World) {left intersection : Nat} (count : Nat)
    (hleft : path.length ≤ left + 1)
    (hrivers : 1 < crossed intersection + (world.rivers path).length) :
    ∃ traced, world.UpToSecond (crossed intersection) path traced ∧
      traceRoad previous start left world current count intersection =
        .error ⟨world.addOverlays fdTileOverlayRoadCandidate traced, fdErrGenerationExhausted⟩ := by
  induction h generalizing world left count intersection with
  | start =>
      by_cases hsecond : world.hasOverlay start fdTileOverlayRiver = true ∧ intersection ≠ uint32Max
      · exact traceRoad_second world hsecond
      · rw [← crossed_met (hpath start List.mem_cons_self) hsecond] at hrivers
        have hle : crossed (world.met start intersection) ≤ 1 := by
          unfold crossed
          split <;> omega
        exact absurd hle (not_le.mpr hrivers)
  | @step current path later rest ih =>
      by_cases hsecond : world.hasOverlay current fdTileOverlayRiver = true ∧
          intersection ≠ uint32Max
      · exact traceRoad_second world hsecond
      · have hcurrent := hpath current List.mem_cons_self
        have hprevious := hpath _ (List.mem_cons_of_mem current rest.mem)
        have hlength := List.length_pos_of_mem rest.mem
        obtain ⟨left, rfl⟩ : ∃ fewer, left = fewer + 1 :=
          Nat.exists_eq_add_one.mpr (hlength.trans_le (Nat.le_of_succ_le_succ hleft))
        rw [← crossed_met hcurrent hsecond, ← rivers_addOverlay world current] at hrivers
        obtain ⟨traced, ⟨hpart, before, second, rfl, hriver, hmet⟩, htrace⟩ :=
          ih (fun i hi => hpath i (List.mem_cons_of_mem current hi)) _ (count + 1)
            (Nat.le_of_succ_le_succ hleft) hrivers
        rw [(sameBut_addOverlay (by decide)).hasOverlay] at hriver
        rw [rivers_addOverlay, crossed_met hcurrent hsecond] at hmet
        exact ⟨current :: (before ++ [second]), ⟨List.prefix_cons_inj current |>.mpr hpart,
          current :: before, second, rfl, hriver, hmet⟩,
          (traceRoad_later world later hprevious hsecond).trans htrace⟩

end trace

section laid

variable {world : World} {path : List Nat}

/-- The bits of the road and of its crossing. -/
abbrev roadBits : UInt32 := fdTileOverlayRoadCandidate ||| fdTileRoadCrossing

/-- A map without a road. -/
def World.RoadFree (world : World) : Prop :=
  ∀ index < world.tileCount, (world.tile index).overlays &&& roadBits = 0

/-- The map once the road is laid along `path`: nothing but the road bits and the length of the
road has changed. -/
structure World.RoadLaid (world paved : World) (path : List Nat) : Prop where
  road : ∀ index, paved.hasOverlay index fdTileOverlayRoadCandidate = true ↔ index ∈ path
  crossing : ∀ index, paved.hasOverlay index fdTileRoadCrossing = true ↔ index ∈ world.rivers path
  count : paved.roadTileCount.toNat = path.length
  same : world.SameBut { paved with roadTileCount := world.roadTileCount } (~~~ roadBits)

theorem tile_of_not_lt {index : Nat} (h : ¬ index < world.tileCount) :
    world.tile index = Tile.zero := by
  rw [World.tile, List.getD_eq_getElem?_getD, List.getElem?_eq_none (Nat.not_lt.mp h),
    Option.getD_none]

/-- A map without a road has neither bit anywhere. -/
theorem World.RoadFree.hasOverlay (h : world.RoadFree) {bit : UInt32}
    (hbit : roadBits &&& bit = bit) (index : Nat) : ¬ world.hasOverlay index bit = true := by
  have hclear : (world.tile index).overlays &&& roadBits = 0 := by
    by_cases hlt : index < world.tileCount
    · exact h index hlt
    · rw [tile_of_not_lt hlt]
      rfl
  rw [World.hasOverlay, bne_iff_ne, not_not, ← hbit, ← UInt32.and_assoc, hclear, UInt32.zero_and]

/-- The crossing goes to the river tile of the path. -/
theorem markCrossing_rivers (marked : World) (hpath : ∀ i ∈ path, i ≠ uint32Max)
    (hrivers : (world.rivers path).length ≤ 1) :
    markCrossing marked ((world.rivers path).headD uint32Max) =
      marked.addOverlays fdTileRoadCrossing (world.rivers path) := by
  rcases htiles : world.rivers path with _ | ⟨river, _ | ⟨second, rest⟩⟩
  · exact if_neg (not_not.mpr rfl)
  · have hin : river ∈ world.rivers path := htiles ▸ List.mem_singleton_self river
    exact if_pos (hpath river (List.mem_of_mem_filter hin))
  · rw [htiles, List.length_cons, List.length_cons] at hrivers
    omega

theorem roadLaid_of_rivers (hfree : world.RoadFree) (hpath : ∀ i ∈ path, i < world.tileCount)
    (hmax : ∀ i ∈ path, i ≠ uint32Max) (hrivers : (world.rivers path).length ≤ 1)
    (hlength : path.length < 4294967296) :
    world.RoadLaid { markCrossing (world.addOverlays fdTileOverlayRoadCandidate path)
      ((world.rivers path).headD uint32Max) with
        roadTileCount := UInt32.ofNat path.length } path := by
  rw [markCrossing_rivers _ hmax hrivers]
  have hmarked : ∀ overlay, fdTileOverlayRoadCandidate &&& overlay = 0 →
      world.SameBut (world.addOverlays fdTileOverlayRoadCandidate path) overlay :=
    fun overlay h => sameBut_addOverlays h path
  have hcrossed : ∀ overlay, fdTileRoadCrossing &&& overlay = 0 →
      (world.addOverlays fdTileOverlayRoadCandidate path).SameBut
        ((world.addOverlays fdTileOverlayRoadCandidate path).addOverlays fdTileRoadCrossing
          (world.rivers path)) overlay :=
    fun overlay h => sameBut_addOverlays h (world.rivers path)
  have hboth := (hmarked (~~~ roadBits) (by decide)).trans (hcrossed (~~~ roadBits) (by decide))
  constructor
  · intro index
    have hkept := hcrossed fdTileOverlayRoadCandidate (by decide)
    refine (Bool.eq_iff_iff.mp hkept.hasOverlay).trans ?_
    rw [hasOverlay_addOverlays hpath (by decide)]
    exact or_iff_left (hfree.hasOverlay (by decide) index)
  · intro index
    refine (hasOverlay_addOverlays ?_ (by decide)).trans ?_
    · intro i hi
      rw [(hmarked 0 (by decide)).tileCount]
      exact hpath i (List.mem_of_mem_filter hi)
    · rw [(hmarked fdTileRoadCrossing (by decide)).hasOverlay]
      exact or_iff_left (hfree.hasOverlay (by decide) index)
  · exact UInt32.toNat_ofNat_of_lt' hlength
  · have hcount := congrArg World.roadTileCount hboth.rest
    rw [← show _ = world.roadTileCount from hcount]
    exact hboth

end laid

end FrontierDirectorate
