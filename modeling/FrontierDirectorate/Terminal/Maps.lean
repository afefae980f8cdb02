import Mathlib
import FrontierDirectorate.Terminal.Handles
import FrontierDirectorate.Terminal.Screen

/-!
# Map screens

`render_local`, `render_strategic` and `render_debug_hash_ascii` of
`ascii_renderer.cpp`. The lines of a screen are a definition of their own, before
they are cut to the terminal.
-/
namespace FrontierDirectorate.Terminal
open Checks

def captureEntities (snapshot : SnapshotHandle) (info : WorldInfo) : Except Fail (List EntityView) :=
  (List.range info.entityCount.toNat).mapM fun index => snapshot.entityByIndex (UInt32.ofNat index)

def captureTiles (snapshot : SnapshotHandle) (info : WorldInfo) : Except Fail (List TileView) := do
  failIf (uint64Max < info.width.toNat * info.height.toNat)
    (renderError fdErrCapacity "tile snapshot does not fit address space")
  let rows ← (List.range info.height.toNat).mapM fun y =>
    (List.range info.width.toNat).mapM fun x => snapshot.tile (UInt32.ofNat x) (UInt32.ofNat y)
  .ok rows.flatten

def unselectedGlyph (tile : TileView) (info : WorldInfo) : Except Fail Char :=
  if tile.settlementId = info.coastalSettlementId then .ok 'c'
  else if tile.settlementId = info.inlandSettlementId then .ok 'n'
  else if tile.overlays &&& fdTileOverlayRoadCandidate ≠ 0 then .ok ':'
  else if tile.overlays &&& fdTileOverlayRiver ≠ 0 then .ok 'r'
  else if tile.terrain = fdTerrainWater then .ok '~'
  else if tile.terrain = fdTerrainGrassland then .ok '.'
  else if tile.terrain = fdTerrainForest then .ok 'f'
  else if tile.terrain = fdTerrainHills then .ok '^'
  else if tile.terrain = fdTerrainWetlands then .ok 'v'
  else if tile.terrain = fdTerrainSettlement then
    .error (renderError fdErrState "settlement terrain had no known settlement identity")
  else .error (renderError fdErrState "unknown terrain wire value")

section localMap

/-- What `render_local` derives from the options and the size of the world. -/
structure LocalView where
  selectedX : UInt32
  selectedY : UInt32
  viewWidth : UInt32
  viewHeight : UInt32
  originX : UInt32
  originY : UInt32
  leftWidth : UInt32
deriving DecidableEq, Repr

/-- The view, over the subtraction of words it is computed with. -/
def localViewWith {m : Type → Type} [Monad m] (sub : Subtraction m) (options : RenderOptions)
    (width height : UInt32) : m LocalView := do
  let selectedX := min options.selectedX (← sub.word width 1)
  let selectedY := min options.selectedY (← sub.word height 1)
  let availableMap ← sub.word options.columns kInspectorWidth
  let availableMap ← sub.word availableMap 2
  let availableMap ← sub.word availableMap kMapPrefixWidth
  let availableMap ← sub.word availableMap 2
  let viewWidth := min availableMap width
  let maximumMapRows ← sub.word options.rows 9
  let viewHeight := min maximumMapRows height
  let originX := min options.viewportX (← sub.word width viewWidth)
  let originY := min options.viewportY (← sub.word height viewHeight)
  let leftWidth := kMapPrefixWidth + 1 + viewWidth + 1
  return { selectedX, selectedY, viewWidth, viewHeight, originX, originY, leftWidth }

def localView (options : RenderOptions) (width height : UInt32) : LocalView :=
  localViewWith .machine options width height

def localInspector (info : WorldInfo) (entities : List EntityView) (view : LocalView)
    (selected : TileView) (glyph : Char) : List Text :=
  [asciiBytes "Scope: REFERENCE snapshot",
    asciiBytes "Selected: " ++ coordinate view.selectedX view.selectedY,
    asciiBytes "Glyph: @ over " ++ fill 1 glyph,
    asciiBytes "Terrain: " ++ terrainName selected.terrain,
    asciiBytes "Elev/rain: " ++ decimalInt selected.elevationCm ++ asciiBytes "cm / " ++
      decimal selected.rainfallMm.toNat ++ asciiBytes "mm",
    asciiBytes "Overlays: " ++ overlayNames selected.overlays,
    asciiBytes "Settlement: " ++ identity entities selected.settlementId,
    asciiBytes "Region: " ++ identity entities selected.regionId,
    asciiBytes "Tile owner: " ++ identity entities selected.polityOwnerId,
    asciiBytes "Local polity: " ++ identity entities info.localPolityId,
    asciiBytes "Foreign A: " ++ identity entities (info.foreignFactionIds.get 0),
    asciiBytes "Foreign B: " ++ identity entities (info.foreignFactionIds.get 1),
    asciiBytes "Manifest: " ++ hexPrefix info.contentSha256.toList 4,
    asciiBytes "State: " ++ hexPrefix info.stateSha256.toList 4,
    asciiBytes "Seed: " ++ seedShort info]

/-- The last digits of the columns in view. -/
def localAxis (view : LocalView) : Text :=
  fill (kMapPrefixWidth.toNat + 1) ' ' ++ (List.range view.viewWidth.toNat).map fun offset =>
    0x30 + ((view.originX + UInt32.ofNat offset) % 10).toUInt8

def localBorder (view : LocalView) : Text :=
  fill kMapPrefixWidth.toNat ' ' ++ asciiBytes "+" ++ fill view.viewWidth.toNat '-' ++ asciiBytes "+"

def localGlyph (snapshot : SnapshotHandle) (info : WorldInfo) (view : LocalView) (x y : UInt32) :
    Except Fail Char := do
  let tile ← snapshot.tile x y
  if x ≠ view.selectedX ∨ y ≠ view.selectedY then unselectedGlyph tile info else .ok '@'

/-- The glyphs of one row of the map. -/
def localGlyphs (snapshot : SnapshotHandle) (info : WorldInfo) (view : LocalView) (row : Nat) :
    Except Fail (List Char) :=
  (List.range view.viewWidth.toNat).mapM fun column =>
    localGlyph snapshot info view (view.originX + UInt32.ofNat column) (view.originY + UInt32.ofNat row)

def localMapLine (snapshot : SnapshotHandle) (info : WorldInfo) (view : LocalView) (row : Nat) :
    Except Fail Text := do
  let glyphs ← localGlyphs snapshot info view row
  .ok (padNumber (view.originY + UInt32.ofNat row) 3 ++ asciiBytes " |" ++
    glyphs.map (fun glyph => glyph.toNat.toUInt8) ++ asciiBytes "|")

def localHelp : Text :=
  asciiBytes "Keys: ? help q quit arrows/hjkl move Tab pane Enter inspect m map pass"

def localFooter (options : RenderOptions) : List Text :=
  [asciiBytes "Legend: ~=water .=grass f=forest ^=hills v=wetland r=river",
    asciiBytes "Legend: :=road-candidate c=coastal n=inland @=selected/inspect",
    footerMessage options,
    localHelp]

/-- The heading and the map with the inspector beside it. -/
def localContent (snapshot : SnapshotHandle) (options : RenderOptions) (info : WorldInfo)
    (entities : List EntityView) : Except Fail (List Text) := do
  failIf (info.width = 0 ∨ info.height = 0) (renderError fdErrState "world dimensions are zero")
  let view := localView options info.width info.height
  let selected ← snapshot.tile view.selectedX view.selectedY
  let glyph ← unselectedGlyph selected info
  let inspector := localInspector info entities view selected glyph
  let compose := fun left right => composeColumns left right view.leftWidth options.columns
  let mapLines ← (List.range view.viewHeight.toNat).mapM fun row => do
    let mapLine ← localMapLine snapshot info view row
    .ok (compose mapLine (inspector.getD (row + 1) []))
  .ok (
    [asciiBytes "FRONTIER DIRECTORATE | LOCAL TILE MAP | ADMIN/OMNISCIENT REFERENCE",
      fit (localStatus info) options.columns,
      compose (localAxis view) (asciiBytes "INSPECTOR | immutable C snapshot"),
      compose (localBorder view) (inspector.getD 0 [])] ++
    mapLines ++
    [compose (localBorder view) (inspector.getD (view.viewHeight + 1).toNat [])])

def localLines (snapshot : SnapshotHandle) (options : RenderOptions) (info : WorldInfo)
    (entities : List EntityView) : Except Fail (List Text) := do
  let content ← localContent snapshot options info entities
  .ok (footed content (localFooter options) options.rows)

def renderLocal (snapshot : SnapshotHandle) (options : RenderOptions) (info : WorldInfo)
    (entities : List EntityView) : Except Fail Text := do
  let lines ← localLines snapshot options info entities
  .ok (finalize lines options.columns options.rows)

end localMap

section strategic

/-- One line of the graph, in its frame. -/
def nodeLine (options : RenderOptions) (body : Text) : Text :=
  if options.columns ≤ 4 then fit body options.columns
  else
    let body := fit body (options.columns - 4)
    asciiBytes "| " ++ body ++ fill ((options.columns - 4).toNat - body.length) ' ' ++
      asciiBytes " |"

def strategicBorder (options : RenderOptions) : Text :=
  asciiBytes "+" ++ fill (options.columns - 2).toNat '-' ++ asciiBytes "+"

def memberLine (options : RenderOptions) (entities : List EntityView) (id : FdEntityId) :
    Except Fail Text :=
  match findEntity entities id with
  | none => .error (renderError fdErrState "region settlement identity was not queryable")
  | some settlement =>
      let marker := if settlement.kind = fdEntitySettlementCoastal then "[C] " else "[I] "
      .ok (nodeLine options (asciiBytes "    member -> " ++ asciiBytes marker ++
        identity entities settlement.id ++ asciiBytes " @" ++
        coordinate settlement.x settlement.y))

def presenceLine (options : RenderOptions) (entities : List EntityView) (id : FdEntityId) : Text :=
  nodeLine options (asciiBytes "    presence -> [F] " ++ identity entities id)

/-- The tiles the region refers to: outlet, road start and road end. -/
def strategicTiles (tiles : List TileView) (region : RegionView) :
    Except Fail (TileView × TileView × TileView) :=
  match findTile tiles region.riverOutletTileId, findTile tiles region.roadStartTileId,
    findTile tiles region.roadEndTileId with
  | some outlet, some roadStart, some roadEnd => .ok (outlet, roadStart, roadEnd)
  | _, _, _ => .error (renderError fdErrState
      "strategic physical reference did not resolve to a public tile")

def strategicHelp : Text := asciiBytes "Keys: ? help q quit m local-map Tab pane messages replay pass"

def strategicFooter (options : RenderOptions) : List Text :=
  [asciiBytes "Legend: [R]=region [P]=polity [C]=coastal [I]=inland [F]=foreign",
    asciiBytes "Legend: ->=relation ~>=river outlet ::=road candidate @x,y=coordinates",
    footerMessage options,
    strategicHelp]

/-- The region and what it is related to. -/
def strategicContent (snapshot : SnapshotHandle) (options : RenderOptions) (info : WorldInfo)
    (entities : List EntityView) : Except Fail (List Text) := do
  let region ← snapshot.region
  let tiles ← captureTiles snapshot info
  let (outlet, roadStart, roadEnd) ← strategicTiles tiles region
  let node := nodeLine options
  let members ← (region.settlementIds.toList.take (min region.settlementCount 2).toNat).mapM
    (memberLine options entities)
  let presences := (region.foreignFactionIds.toList.take
    (min region.foreignPresenceCount fdU01SeatCount).toNat).map (presenceLine options entities)
  .ok (
    [asciiBytes "FRONTIER DIRECTORATE | STRATEGIC REGION GRAPH | ADMIN/OMNISCIENT REFERENCE",
      asciiBytes "Scale: REGION | Tick " ++ decimal info.tick.toNat ++ asciiBytes " | " ++
        dateText info.tick ++ asciiBytes " | PAUSED | Terminal: N/A-U01",
      strategicBorder options,
      node (asciiBytes "[R] " ++ identity entities region.id),
      node (asciiBytes "    owner -> [P] " ++ identity entities region.politicalOwnerId)] ++
    members ++
    [node (asciiBytes "    river ~> outlet tile #" ++ decimal region.riverOutletTileId.toNat ++
        asciiBytes " @" ++ coordinate outlet.x outlet.y ++ asciiBytes " (" ++
        decimal region.riverTileCount.toNat ++ asciiBytes " tiles)"),
      node (asciiBytes "    road  [C] :: [I] candidate " ++ coordinate roadStart.x roadStart.y ++
        asciiBytes " -> " ++ coordinate roadEnd.x roadEnd.y ++ asciiBytes " (" ++
        decimal region.roadTileCount.toNat ++ asciiBytes " tiles)")] ++
    presences ++
    [node (asciiBytes "    manifest " ++ hexPrefix info.contentSha256.toList 4 ++
        asciiBytes " | state " ++ hexPrefix info.stateSha256.toList 4),
      strategicBorder options])

def strategicLines (snapshot : SnapshotHandle) (options : RenderOptions) (info : WorldInfo)
    (entities : List EntityView) : Except Fail (List Text) := do
  let content ← strategicContent snapshot options info entities
  .ok (footed content (strategicFooter options) options.rows)

def renderStrategic (snapshot : SnapshotHandle) (options : RenderOptions) (info : WorldInfo)
    (entities : List EntityView) : Except Fail Text := do
  let lines ← strategicLines snapshot options info entities
  .ok (finalize lines options.columns options.rows)

end strategic

/-- The lines of the screen the options ask for, at a supported size. -/
def mapLines (snapshot : SnapshotHandle) (options : RenderOptions) : Except Fail (List Text) := do
  failIf (snapshot = none) (renderError fdErrState "snapshot is empty or moved-from")
  let info ← snapshot.info
  let entities ← captureEntities snapshot info
  match options.mode with
  | .localMap => localLines snapshot options info entities
  | .strategic => strategicLines snapshot options info entities

def renderAscii (snapshot : SnapshotHandle) (options : RenderOptions) : Except Fail Text :=
  renderSized options do
    failIf (snapshot = none) (renderError fdErrState "snapshot is empty or moved-from")
    let info ← snapshot.info
    let entities ← captureEntities snapshot info
    match options.mode with
    | .localMap => renderLocal snapshot options info entities
    | .strategic => renderStrategic snapshot options info entities

section debugHash

def debugHashFooter (options : RenderOptions) : List Text :=
  [asciiBytes "Columns: all hashes/versions are copied from the immutable C snapshot",
    footerMessage options,
    asciiBytes "Keys: ? help q quit m map local strategic pass"]

def debugHashContent (info : WorldInfo) : List Text :=
  [asciiBytes "FRONTIER DIRECTORATE | DEBUG STATE HASH | ADMIN/OMNISCIENT REFERENCE",
    localStatus info,
    asciiBytes "+-- IMMUTABLE CANONICAL IDENTITY -------------------------------------------+",
    asciiBytes "State SHA-256 [00..15]: " ++ hexPrefix info.stateSha256.toList 16,
    asciiBytes "State SHA-256 [16..31]: " ++ hexPrefix (info.stateSha256.toList.drop 16) 16,
    asciiBytes "Config SHA-256[00..15]: " ++ hexPrefix info.configurationSha256.toList 16,
    asciiBytes "Config SHA-256[16..31]: " ++
      hexPrefix (info.configurationSha256.toList.drop 16) 16,
    asciiBytes "Content manifest short: " ++ hexPrefix info.contentSha256.toList 8,
    asciiBytes "Root seed: " ++ seedHex info,
    asciiBytes "Versions: generator=" ++ decimal info.generatorVersion.toNat ++
      asciiBytes " ruleset=" ++ decimal info.rulesetVersion.toNat ++
      asciiBytes " rng-registry=" ++ decimal info.rngRegistryVersion.toNat,
    asciiBytes "World: " ++ decimal info.width.toNat ++ asciiBytes "x" ++
      decimal info.height.toNat ++ asciiBytes " tiles; entities=" ++
      decimal info.entityCount.toNat ++ asciiBytes "; region=" ++ decimal info.regionId.toNat,
    asciiBytes "+----------------------------------------------------------------------------+"]

def debugHashLines (snapshot : SnapshotHandle) (options : RenderOptions) :
    Except Fail (List Text) := do
  let info ← snapshot.info
  .ok (footed (debugHashContent info) (debugHashFooter options) options.rows)

def renderDebugHashAscii (snapshot : SnapshotHandle) (options : RenderOptions) : Except Fail Text :=
  renderSized options do
    let lines ← debugHashLines snapshot options
    .ok (finalize lines options.columns options.rows)

end debugHash

end FrontierDirectorate.Terminal
