import OpenFlow.Bytes
import OpenFlow.Element.Registry

/-!
# Meters

A meter has bands, each with a rate, a burst size and what happens to packets
above the rate.
-/

namespace OpenFlow

/-- What a band does to packets above its rate. -/
inductive BandEffect where
  | drop
  /-- Raise the drop precedence of the DSCP field by some levels. -/
  | dscpRemark (precLevel : UInt8)
  | experimenter (id : UInt32) (body : Bytes)
  | unknown (code length : UInt16) (body : Bytes)
  deriving DecidableEq, Repr

/-- A band of a meter. -/
structure MeterBand where
  rate : UInt32
  burstSize : UInt32
  effect : BandEffect
  deriving DecidableEq, Repr

namespace MeterBand

/-- The name of the family. -/
def family : String := "meter band"

/-- The type code of a band. -/
def code (b : MeterBand) : UInt16 :=
  match b.effect with
  | .drop => 1
  | .dscpRemark _ => 2
  | .experimenter _ _ => 0xffff
  | .unknown code _ _ => code

/-- A blank band of each known type. -/
def blanks : List MeterBand :=
  [⟨0, 0, .drop⟩, ⟨0, 0, .dscpRemark 0⟩, ⟨0, 0, .experimenter 0 []⟩]

/-- The registry of the known band types. -/
def types : Registry MeterBand := ⟨family, blanks.map fun b => (b.code, b)⟩

end MeterBand

/-- The configuration of a meter. -/
structure MeterConfig where
  flags : UInt16
  meterId : UInt32
  bands : List MeterBand
  deriving DecidableEq, Repr

end OpenFlow
