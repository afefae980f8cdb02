import Mathlib
import FrontierDirectorate.Core.Views

/-!
# Screen text

The helpers of `ascii_renderer.cpp`. A `std::string` is the list of its bytes.
-/
namespace FrontierDirectorate.Terminal

abbrev Text := List UInt8

abbrev blank : UInt8 := 0x20
abbrev newline : UInt8 := 0x0a

/-- `count` copies of one character. -/
def fill (count : Nat) (c : Char) : Text := List.replicate count c.toNat.toUInt8

def printable (byte : UInt8) : Bool := 0x20 ≤ byte && byte ≤ 0x7e

def asciiText (bytes : Text) : Text := bytes.map fun byte => if printable byte then byte else 0x3f

/-- `std::to_chars` of an unsigned value; the buffer has room for every 64-bit value. -/
def decimal (value : Nat) : Text := (Nat.toDigits 10 value).map fun c => c.toNat.toUInt8

def decimalInt (value : Int32) : Text :=
  if value < 0 then asciiBytes "-" ++ decimal value.toInt.natAbs else decimal value.toInt.natAbs

def entityName (entity : EntityView) : Text :=
  asciiText (entity.name.take (min entity.nameLength.toNat fdMaxNameBytes))

def hexDigit (nibble : UInt8) : UInt8 :=
  (asciiBytes "0123456789abcdef").getD nibble.toNat 0

def hexByte (byte : UInt8) : Text := [hexDigit (byte >>> 4), hexDigit (byte &&& 0x0f)]

def hexPrefix (bytes : List UInt8) (byteCount : Nat) : Text := (bytes.take byteCount).flatMap hexByte

def seedHex (info : WorldInfo) : Text := info.rootSeedLe.toList.reverse.flatMap hexByte

def seedShort (info : WorldInfo) : Text := (seedHex info).drop 16

def fit (text : Text) (columns : UInt32) : Text :=
  (text.take columns.toNat).rdropWhile (· == blank)

def composeColumns (left right : Text) (leftWidth totalWidth : UInt32) : Text :=
  let left := fit left leftWidth
  let left := left ++ fill (leftWidth.toNat - left.length) ' '
  let left := left ++ asciiBytes "  "
  if totalWidth.toNat ≤ left.length then fit left totalWidth
  else
    let remaining := totalWidth - UInt32.ofNat left.length
    fit (left ++ fit right remaining) totalWidth

def padNumber (value width : UInt32) : Text :=
  let result := decimal value.toNat
  fill (width.toNat - result.length) ' ' ++ result

def coordinate (x y : UInt32) : Text :=
  asciiBytes "(" ++ decimal x.toNat ++ asciiBytes "," ++ decimal y.toNat ++ asciiBytes ")"

def terrainName (terrain : UInt32) : Text :=
  if terrain = fdTerrainWater then asciiBytes "water"
  else if terrain = fdTerrainGrassland then asciiBytes "grassland"
  else if terrain = fdTerrainForest then asciiBytes "forest"
  else if terrain = fdTerrainHills then asciiBytes "hills"
  else if terrain = fdTerrainWetlands then asciiBytes "wetlands"
  else if terrain = fdTerrainSettlement then asciiBytes "settlement"
  else asciiBytes "INVALID(" ++ decimal terrain.toNat ++ asciiBytes ")"

/-- The overlay bits and what they are called, in the order they are listed. -/
def overlayTable : List (UInt32 × String) :=
  [(fdTileOverlayRiver, "river"), (fdTileOverlayRoadCandidate, "road-candidate"),
    (fdTileRiverOutlet, "outlet"), (fdTileRoadCrossing, "crossing")]

def overlayNames (overlays : UInt32) : Text :=
  let names := (overlayTable.filter fun entry => overlays &&& entry.1 ≠ 0).map
    fun entry => asciiBytes entry.2
  if names = [] then asciiBytes "none" else (asciiBytes ",").intercalate names

def findEntity (entities : List EntityView) (id : FdEntityId) : Option EntityView :=
  entities.find? fun entity => entity.id == id

def identity (entities : List EntityView) (id : FdEntityId) : Text :=
  if id = 0 then asciiBytes "none"
  else
    match findEntity entities id with
    | none => asciiBytes "INVALID-ID #" ++ decimal id.toNat
    | some entity => entityName entity ++ asciiBytes " #" ++ decimal id.toNat

def findTile (tiles : List TileView) (id : UInt64) : Option TileView :=
  tiles.find? fun tile => tile.tileId == id

def dateText (tick : UInt64) : Text :=
  let year := tick / 8640 + 1
  let day := tick % 8640 / 24 + 1
  asciiBytes "Day " ++ decimal day.toNat ++ asciiBytes ", Year " ++ decimal year.toNat

def localStatus (info : WorldInfo) : Text :=
  asciiBytes "Tick " ++ decimal info.tick.toNat ++ asciiBytes " | " ++ dateText info.tick ++
    asciiBytes " | PAUSED | Terminal: N/A-U01"

/-- Blank lines until `footerLines` more fill the rows. -/
def padBeforeFooter (lines : List Text) (rows : UInt32) (footerLines : Nat) : List Text :=
  lines ++ List.replicate (rows.toNat - (lines.length + footerLines)) []

/-- A line as it is shown. -/
def shown (columns : UInt32) (line : Text) : Text := fit (asciiText line) columns

def finalize (lines : List Text) (columns rows : UInt32) : Text :=
  let lines := lines.take rows.toNat
  let lines := lines ++ List.replicate (rows.toNat - lines.length) []
  lines.flatMap fun line => shown columns line ++ [newline]

end FrontierDirectorate.Terminal
