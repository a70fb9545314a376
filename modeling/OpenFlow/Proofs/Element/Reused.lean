import OpenFlow.Element.InPlace
import OpenFlow.Proofs.Element.Family
import OpenFlow.Proofs.Wire.Filler

/-!
# Elements that are read into again

An element that was read into before, any number of times and with whatever came of it, is as good
as a blank of its type: the next reading ends in the same way, at the same place, and leaves the
same element behind.  Each field that a type of element has is overwritten before a reading of it
succeeds, and no field decides how the others are read.

A reading that fails leaves some fields new and some old, so the memory in between need not be that
of any element on the wire.  All that is kept is the type.  The invariant of a run of readings is
therefore not about what the memory holds: it says that the memory is read into like the element at
the start.

Main definitions:

* `Element.ReadAlike`: two elements that are read into with the same outcome.
* `Element.Refillable`: a family whose elements can be read into again.

Main statements:

* `Element.readAlike_fillAll`: the invariant, along a run of readings.
* `Element.filled_fillAll`: a used element is read into like the element it was at first.
-/

namespace OpenFlow

namespace Element

variable {ε : Type} [Element ε]

/-- Whether two elements are read into with the same outcome, whatever is read. -/
def ReadAlike (e e' : ε) : Prop := ∀ ctx, Element.read ctx e = Element.read ctx e'

/-- A family whose elements can be read into again: what comes of it is what comes of reading in the
form of a blank, and the type stays, also where the reading fails. -/
class Refillable (ε : Type) [Element ε] [InPlace ε] where
  /-- An element of the type that the memory is for. -/
  blank : InPlace.Memory ε → ε
  blank_hold (e : ε) : ReadAlike (blank (InPlace.hold e)) e
  filled (ctx : Context) (m : InPlace.Memory ε) :
    (InPlace.fill ctx).filled m = InPlace.hold <$> Element.read ctx (blank m)
  keeps (ctx : Context) (m : InPlace.Memory ε) :
    (InPlace.fill ctx).Keeps (fun m' => ReadAlike (blank m') (blank m)) m

end Element

/-! ## Actions -/

namespace SetField

theorem filled_fill (ctx : Context) (slots : Slots) :
    (fill ctx).filled slots = hold <$> read ctx := by
  simp only [fill, read, Filler.filled_read_bind, map_bind]
  refine bind_congr fun start => bind_congr fun _ => bind_congr fun x => ?_
  rcases x with e | field
  · cases e with
    | unknownFieldType oxmClass field =>
      by_cases h : ctx.unknownFields = .skip
      · simp [h, hold]
      · simp only [if_neg h]
        rfl
    | _ => rfl
  · simp [hold]

end SetField

namespace Action

/-- An action of the type that the memory is for. -/
def Memory.blank : Memory → Action
  | .setField _ => .setField (.raw [])
  | .plain a _ => a

theorem filled_fillBody (ctx : Context) (declared : UInt16) (m : Memory) :
    (fillBody ctx declared).filled m = hold <$> readBody ctx declared m.blank := by
  rcases m with slots | ⟨a, h⟩
  · simp [fillBody, readBody, Memory.blank, SetField.filled_fill, hold]
  · cases a with
    | setField content => exact (h trivial).elim
    | _ => simp [fillBody, readBody, Memory.blank, hold]

/-- An action stays of its type.  All that is stored on the way is what a reading does not look at:
that two actions are read alike is checked by `rfl`. -/
theorem keeps_fillBody (ctx : Context) (declared : UInt16) (m : Memory) :
    (fillBody ctx declared).Keeps (fun m' => Element.ReadAlike m'.blank m.blank) m := by
  refine .memory_bind ?_
  rcases m with slots | ⟨a, h⟩
  · -- Whatever the slots hold, the blank is the same.
    exact .focus fun _ _ => rfl
  · cases a with
    | setField content => exact (h trivial).elim
    | output port maxLen =>
      exact .read_bind (fun _ => rfl) fun _ => .store_bind <|
        .read_bind (fun _ => rfl) fun _ => .store_bind <| .read fun _ => rfl
    | unknown code length body =>
      exact .store_bind <| .read_bind (fun _ => rfl) fun _ => .store fun _ => rfl
    | setQueue i | group i => exact .read_bind (fun _ => rfl) fun _ => .store fun _ => rfl
    | copyTtlOut | copyTtlIn | decMplsTtl | popVlan | decNwTtl | popPbb =>
      exact .read fun _ => rfl
    | _ => exact .read_bind (fun _ => rfl) fun _ => .store_bind <| .read fun _ => rfl

instance : Element.Refillable Action where
  blank := Memory.blank
  blank_hold a _ := by cases a <;> rfl
  filled ctx m := by
    change (fill ctx).filled m = hold <$> read ctx m.blank
    simp [fill, read, filled_fillBody]
  keeps ctx m := .read_bind (fun _ => rfl) fun _ => keeps_fillBody ctx _ m

end Action

/-! ## The other families -/

namespace Instruction

theorem filled_fillBody (ctx : Context) (declared : UInt16) (i : Instruction) :
    (fillBody ctx declared).filled i = readBody ctx declared i := by
  cases i <;> simp [fillBody, readBody]

theorem keeps_fillBody (ctx : Context) (declared : UInt16) (i : Instruction) :
    (fillBody ctx declared).Keeps (Element.ReadAlike · i) i := by
  refine .memory_bind ?_
  cases i with
  | gotoTable => exact .read_bind (fun _ => rfl) fun _ => .store_bind <| .read fun _ => rfl
  | writeMetadata =>
    exact .read_bind (fun _ => rfl) fun _ => .read_bind (fun _ => rfl) fun _ => .store_bind <|
      .read_bind (fun _ => rfl) fun _ => .store fun _ => rfl
  | writeActions | applyActions | meter =>
    exact .read_bind (fun _ => rfl) fun _ => .store fun _ => rfl
  | clearActions => exact .read fun _ => rfl
  | unknown => exact .store_bind <| .read_bind (fun _ => rfl) fun _ => .store fun _ => rfl

instance : Element.Refillable Instruction where
  blank := id
  blank_hold _ _ := rfl
  filled ctx i := by
    change (fill ctx).filled i = id <$> read ctx i
    simp [fill, read, filled_fillBody]
  keeps ctx i := .read_bind (fun _ => rfl) fun _ => keeps_fillBody ctx _ i

end Instruction

namespace QueueProperty

theorem filled_fillBody (declared : UInt16) (p : QueueProperty) :
    (fillBody declared).filled p = readBody declared p := by
  cases p <;> simp [fillBody, readBody, readRate]

theorem keeps_fillBody (declared : UInt16) (p : QueueProperty) :
    (fillBody declared).Keeps (Element.ReadAlike · p) p := by
  refine .memory_bind ?_
  cases p with
  | minRate | maxRate =>
    exact .read_bind (fun _ => rfl) fun _ => .store_bind <| .read fun _ => rfl
  | unknown => exact .store_bind <| .read_bind (fun _ => rfl) fun _ => .store fun _ => rfl

instance : Element.Refillable QueueProperty where
  blank := id
  blank_hold _ _ := rfl
  filled ctx p := by
    change (fill ctx).filled p = id <$> read ctx p
    simp [fill, read, filled_fillBody]
  keeps _ p :=
    .read_bind (fun _ => rfl) fun _ => .read_bind (fun _ => rfl) fun _ => keeps_fillBody _ p

end QueueProperty

namespace HelloElement

theorem filled_fillBody (declared : UInt16) (e : HelloElement) :
    (fillBody declared).filled e = readBody declared e := by
  cases e <;> simp [fillBody, readBody]

theorem keeps_fillBody (declared : UInt16) (e : HelloElement) :
    (fillBody declared).Keeps (Element.ReadAlike · e) e := by
  refine .memory_bind ?_
  cases e with
  | versionBitmap => exact .read_bind (fun _ => rfl) fun _ => .store fun _ => rfl
  | unknown => exact .store_bind <| .read_bind (fun _ => rfl) fun _ => .store fun _ => rfl

instance : Element.Refillable HelloElement where
  blank := id
  blank_hold _ _ := rfl
  filled ctx e := by
    change (fill ctx).filled e = id <$> read ctx e
    simp [fill, read, filled_fillBody]
  keeps _ e := .read_bind (fun _ => rfl) fun _ => keeps_fillBody _ e

end HelloElement

namespace MeterBand

theorem filled_fillEffect (declared : UInt16) (effect : BandEffect) :
    (fillEffect declared).filled effect = readEffect declared effect := by
  cases effect <;> simp [fillEffect, readEffect]

/-- The effect of a band stays of its type. -/
theorem keeps_fillEffect (declared : UInt16) (band : MeterBand) :
    (fillEffect declared).Keeps (fun effect => Element.ReadAlike { band with effect } band)
      band.effect := by
  obtain ⟨rate, burstSize, effect⟩ := band
  refine .memory_bind ?_
  cases effect with
  | drop => exact .read fun _ => rfl
  | dscpRemark => exact .read_bind (fun _ => rfl) fun _ => .store_bind <| .read fun _ => rfl
  | experimenter =>
    exact .read_bind (fun _ => rfl) fun _ => .store_bind <|
      .read_bind (fun _ => rfl) fun _ => .store fun _ => rfl
  | unknown => exact .store_bind <| .read_bind (fun _ => rfl) fun _ => .store fun _ => rfl

theorem keeps_fill (ctx : Context) (band : MeterBand) :
    (fill ctx).Keeps (Element.ReadAlike · band) band := by
  refine .read_bind (fun _ => rfl) fun (_, declared) => ?_
  refine .read_bind (fun _ => rfl) fun rate => .modify_bind ?_
  refine .read_bind (fun _ => rfl) fun burstSize => .modify_bind ?_
  exact .memory_bind <| .focus <| keeps_fillEffect declared { band with rate, burstSize }

instance : Element.Refillable MeterBand where
  blank := id
  blank_hold _ _ := rfl
  filled ctx band := by
    change (fill ctx).filled band = id <$> read ctx band
    simp [fill, read, filled_fillEffect]
  keeps := keeps_fill

end MeterBand

namespace ElementId

instance : Element.Refillable ElementId where
  blank := id
  blank_hold _ _ := rfl
  filled ctx e := by
    change (fill ctx).filled e = id <$> read ctx e
    simp [fill, read]
  keeps _ _ := fun _ _ => rfl

end ElementId

namespace TableProperty

theorem filled_fillBody (ctx : Context) (declared : UInt16) (p : TableProperty) :
    (fillBody ctx declared).filled p = readBody ctx declared p := by
  cases p <;> simp [fillBody, readBody]

theorem keeps_fillBody (ctx : Context) (declared : UInt16) (p : TableProperty) :
    (fillBody ctx declared).Keeps (Element.ReadAlike · p) p := by
  refine .memory_bind ?_
  cases p with
  | unknown => exact .store_bind <| .read_bind (fun _ => rfl) fun _ => .store fun _ => rfl
  | _ => exact .read_bind (fun _ => rfl) fun _ => .store fun _ => rfl

instance : Element.Refillable TableProperty where
  blank := id
  blank_hold _ _ := rfl
  filled ctx p := by
    change (fill ctx).filled p = id <$> read ctx p
    simp [fill, read, filled_fillBody]
  keeps ctx p := .read_bind (fun _ => rfl) fun _ => keeps_fillBody ctx _ p

end TableProperty

/-! ## Readings one after the other -/

namespace Element

section
variable {ε : Type} [Element ε] [InPlace ε] [Refillable ε]

/-- One reading: what is left in the memory is read into like what was there. -/
theorem readAlike_fill (ctx : Context) (m : InPlace.Memory ε) (c : Cursor) :
    ReadAlike (Refillable.blank ((InPlace.fill ctx).run m c).memory) (Refillable.blank m) :=
  Refillable.keeps ctx m c

/-- A run of readings: what is left in the memory is read into like what was there. -/
theorem readAlike_fillAll (readings : List (Context × Cursor)) (m : InPlace.Memory ε) :
    ReadAlike (Refillable.blank (fillAll readings m)) (Refillable.blank m) := by
  induction readings generalizing m with
  | nil => exact fun _ => rfl
  | cons reading readings ih =>
    intro ctx
    calc
      Element.read ctx (Refillable.blank (fillAll (reading :: readings) m))
      _ = Element.read ctx
          (Refillable.blank ((InPlace.fill reading.1).run m reading.2).memory) := ih _ ctx
      _ = Element.read ctx (Refillable.blank m) := readAlike_fill reading.1 m reading.2 ctx

/-- A used element is read into with the outcome of a reading in the form of the element. -/
theorem filled_fillAll_hold (readings : List (Context × Cursor)) (e : ε) (ctx : Context) :
    (InPlace.fill ctx).filled (fillAll readings (InPlace.hold e)) =
      InPlace.hold <$> Element.read ctx e := by
  rw [Refillable.filled, readAlike_fillAll readings _ ctx, Refillable.blank_hold e ctx]

end

end Element

namespace Family

instance (F : Family) : Element.InPlace F.Member :=
  match F with
  | action => inferInstanceAs (Element.InPlace Action)
  | instruction => inferInstanceAs (Element.InPlace Instruction)
  | queueProperty => inferInstanceAs (Element.InPlace QueueProperty)
  | helloElement => inferInstanceAs (Element.InPlace HelloElement)
  | meterBand => inferInstanceAs (Element.InPlace MeterBand)
  | tableProperty => inferInstanceAs (Element.InPlace TableProperty)
  | elementId => inferInstanceAs (Element.InPlace ElementId)

instance (F : Family) : Element.Refillable F.Member :=
  match F with
  | action => inferInstanceAs (Element.Refillable Action)
  | instruction => inferInstanceAs (Element.Refillable Instruction)
  | queueProperty => inferInstanceAs (Element.Refillable QueueProperty)
  | helloElement => inferInstanceAs (Element.Refillable HelloElement)
  | meterBand => inferInstanceAs (Element.Refillable MeterBand)
  | tableProperty => inferInstanceAs (Element.Refillable TableProperty)
  | elementId => inferInstanceAs (Element.Refillable ElementId)

end Family

/-- An element of any family that was read into before, any number of times and with whatever came
of it, is read into like the element it was at first: with the same value or the same error, up to
the same place, with the same warnings, and where it succeeds with the same memory in the end.  What
comes of it is what comes of reading an element in the form of that one. -/
theorem Element.filled_fillAll (F : Family) (e : F.Member) (readings : List (Context × Cursor))
    (ctx : Context) (c : Cursor) :
    ((InPlace.fill ctx).filled (fillAll readings (InPlace.hold e))).run c =
        ((InPlace.fill ctx).filled (InPlace.hold e)).run c ∧
      ((InPlace.fill ctx).filled (InPlace.hold e)).run c =
        (InPlace.hold <$> Element.read ctx e).run c := by
  rw [filled_fillAll_hold readings e ctx]
  exact ⟨congrArg (Reader.run · c) (filled_fillAll_hold [] e ctx).symm,
    congrArg (Reader.run · c) (filled_fillAll_hold [] e ctx)⟩

end OpenFlow
