import OpenFlow.Element.List
import OpenFlow.Wire.Message

/-!
# The wire form of meters

The rate and the burst size belong to the header of a band.  The configuration
of a meter has a fixed part of eight bytes and then its bands; its own length
covers both.
-/

namespace OpenFlow
namespace MeterBand

/-- The size of the header of a band. -/
def headerSize : Nat := 12

/-- The length a band declares. -/
def length (b : MeterBand) : Nat :=
  match b.effect with
  | .drop | .dscpRemark _ => 16
  | .experimenter _ body => 16 + body.length
  | .unknown _ length _ => max length.toNat headerSize

/-- Read what follows the header of a band of the type of a blank one. -/
def readEffect (declared : UInt16) : BandEffect → Reader BandEffect
  | .drop => do
    Reader.skip 4
    return .drop
  | .dscpRemark _ => do
    let precLevel ← Reader.u8
    Reader.skip 3
    return .dscpRemark precLevel
  | .experimenter _ _ => do
    let id ← Reader.u32
    return .experimenter id (← Reader.rest)
  | .unknown code _ _ => return .unknown code declared (← Reader.rest)

/-- Read a band of the type of a blank one. -/
def read (_ : Context) (blank : MeterBand) : Reader MeterBand := do
  let (_, declared) ← Element.readHeader
  let rate ← Reader.u32
  let burstSize ← Reader.u32
  return ⟨rate, burstSize, ← readEffect declared blank.effect⟩

/-- Append what follows the header of a band. -/
def writeEffect : BandEffect → Writer
  | .drop => Writer.zeros 4
  | .dscpRemark precLevel => Writer.u8 precLevel ++ Writer.zeros 3
  | .experimenter id body => Writer.u32 id ++ Writer.bytes body
  | .unknown _ length body => Writer.fitted (length.toNat - headerSize) body

/-- Append a band. -/
def write (b : MeterBand) : Writer :=
  Element.writeHeader b.code b.length ++ Writer.u32 b.rate ++ Writer.u32 b.burstSize
    ++ writeEffect b.effect

end MeterBand

instance : Element MeterBand where
  family := MeterBand.family
  headerSize := MeterBand.headerSize
  registry? r := some r.meterBands
  generic code length := ⟨0, 0, .unknown code length []⟩
  read := MeterBand.read
  write := MeterBand.write
  length := MeterBand.length
  code := MeterBand.code

namespace MeterConfig

/-- The size of the fixed part of a configuration. -/
def fixedSize : Nat := 8

/-- The number of bytes of a configuration. -/
def size (c : MeterConfig) : Nat := fixedSize + Element.listLength c.bands

/-- Read a configuration. -/
def read (ctx : Context) : Reader MeterConfig := do
  let length := (← Reader.u16).toNat
  let flags ← Reader.u16
  let meterId ← Reader.u32
  let bands ← Element.readList ctx (length - fixedSize)
  return ⟨flags, meterId, bands⟩

/-- Append a configuration. -/
def write (c : MeterConfig) : Writer :=
  Writer.length16 "meter config" c.size ++ Writer.u16 c.flags ++ Writer.u32 c.meterId
    ++ Element.writeList c.bands

end MeterConfig

instance : Message MeterConfig where
  size := MeterConfig.size
  read := MeterConfig.read
  write := MeterConfig.write

end OpenFlow
