import OpenFlow.Meter.Wire
import OpenFlow.Proofs.Element.Lawful

/-!
# Meters, written and read back

The rate and the burst size of a band are part of its header, and the effect follows
them.

Main statements:

* `MeterBand.readsBack`: a well-formed band is read back.
* `MeterConfig.agree`: so is a configuration of well-formed bands.
-/

namespace OpenFlow

namespace MeterBand

/-! ## What is written -/

instance (effect : BandEffect) : Writer.Uniform (writeEffect effect) := by
  cases effect <;> unfold writeEffect <;> infer_instance

theorem headerSize_le_length (b : MeterBand) : headerSize ≤ b.length := by
  obtain ⟨rate, burstSize, effect⟩ := b
  cases effect with
  | experimenter id body =>
    change 12 ≤ 16 + body.length
    omega
  | unknown code length body => exact Nat.le_max_right _ _
  | _ => exact Nat.le_of_ble_eq_true rfl

/-- What follows the header of a band fills the length that it declares. -/
theorem spans_writeEffect (b : MeterBand) :
    Writer.Spans (writeEffect b.effect) (b.length - headerSize) := by
  obtain ⟨rate, burstSize, effect⟩ := b
  cases effect with
  | drop => exact Writer.Spans.zeros 4
  | dscpRemark precLevel =>
    exact (Writer.Spans.append (Writer.Spans.u8 precLevel) (Writer.Spans.zeros 3)).of_size_eq rfl
  | experimenter id body =>
    refine (Writer.Spans.append (Writer.Spans.u32 id) (Writer.Spans.bytes rfl)).of_size_eq ?_
    change 4 + body.length = 16 + body.length - 12
    omega
  | unknown code length body => exact Element.spans_unknown length _ body

/-- The header of a band as a part of its writer. -/
theorem write_eq (b : MeterBand) :
    b.write = Element.writeHeader b.code b.length ++
      (Writer.u32 b.rate ++ (Writer.u32 b.burstSize ++ writeEffect b.effect)) := by
  unfold write
  simp only [Writer.append_assoc]

instance : Element.Lawful MeterBand where
  write_eq b := ⟨_, inferInstance, write_eq b⟩
  headerSize_le_length := headerSize_le_length
  spans_write {b} h := by
    refine Writer.Spans.of_size_eq (Writer.Spans.append (Writer.Spans.append
      (Writer.Spans.append (Element.spans_writeHeader h) (Writer.Spans.u32 _))
      (Writer.Spans.u32 _)) (spans_writeEffect b)) ?_
    exact Nat.add_sub_cancel' (headerSize_le_length b)

/-! ## What is read back -/

/-- A band that its wire form determines: one of an unknown code has the length that it
declares. -/
def WellFormed (b : MeterBand) : Prop :=
  match b.effect with
  | .unknown code length body =>
    types.lookup? code = none ∧ length.toNat = headerSize + body.length
  | _ => True

variable {ctx : Context}

/-- A well-formed band is read like the blank of its type, where its type is known. -/
theorem sameForm {b : MeterBand} (hknown : Element.KnowsType ctx b) (h : b.WellFormed) :
    Element.SameForm ctx b := by
  intro declared
  have htypes : Element.registry? Registries.standard = some types := rfl
  rw [hknown]
  obtain ⟨rate, burstSize, effect⟩ := b
  cases effect with
  | unknown code length body =>
    rw [show Element.code (MeterBand.mk rate burstSize (.unknown code length body)) = code from rfl,
      Element.blank_of_lookup_none htypes h.1]
    rfl
  | _ =>
    rw [Element.blank_of_lookup htypes rfl]
    rfl

/-- A band of an unknown code has the length that it declares. -/
def KeepsLength (b : MeterBand) : Prop :=
  match b.effect with
  | .unknown _ length body => length.toNat = headerSize + body.length
  | _ => True

theorem WellFormed.keepsLength {b : MeterBand} (h : b.WellFormed) : b.KeepsLength := by
  obtain ⟨rate, burstSize, effect⟩ := b
  cases effect with
  | unknown code length body => exact h.2
  | _ => trivial

/-- What is read behind the header that all families share. -/
def readBody (declared : UInt16) (b : MeterBand) : Reader MeterBand := do
  let rate ← Reader.u32
  let burstSize ← Reader.u32
  return ⟨rate, burstSize, ← readEffect declared b.effect⟩

/-- What follows the header of a band. -/
theorem agree_effect {b : MeterBand} (h : b.KeepsLength) (c : Cursor) :
    Agree (writeEffect b.effect) (readEffect (UInt16.ofNat b.length) b.effect) c
      (b.length - headerSize) [] b.effect := by
  obtain ⟨rate, burstSize, effect⟩ := b
  cases effect with
  | drop => exact Agree.last_zeros _ _
  | dscpRemark precLevel => exact Agree.of_size_eq (Agree.u8 (Agree.last_zeros _ _))
  | experimenter id body =>
    refine Agree.of_size_eq (Agree.u32 (Agree.map (Agree.rest body _))) ?_
    change 4 + body.length = 16 + body.length - 12
    omega
  | unknown code length body =>
    rw [show UInt16.ofNat (MeterBand.mk rate burstSize (.unknown code length body)).length =
      length from Element.declared_unknown h]
    exact Element.agree_unknown h c

/-- A band is read back if it is read like its blank and has the length that it declares. -/
theorem readsBack_of_sameForm {b : MeterBand} (hform : Element.SameForm ctx b)
    (h : b.KeepsLength) : Element.ReadsBack ctx b := by
  have hread : Element.read ctx b = Element.readHeader >>= fun x => readBody x.2 b := rfl
  exact Element.ReadsBack.of_agree_nil (write_eq b) hform hread fun _ c =>
    Agree.u32 (Agree.u32 (Agree.map (agree_effect h _)))

/-- **A well-formed band is read back.** -/
theorem readsBack (hreg : ctx.registries = .standard) {b : MeterBand} (h : b.WellFormed) :
    Element.ReadsBack ctx b :=
  readsBack_of_sameForm (sameForm (Element.knowsType_of_standard hreg b) h) h.keepsLength

end MeterBand

namespace MeterConfig

instance (m : MeterConfig) : Writer.Uniform m.write :=
  inferInstanceAs (Writer.Uniform (Writer.length16 _ _ ++ Writer.u16 _ ++ Writer.u32 _
    ++ Element.writeList m.bands))

theorem opensWith_write (m : MeterConfig) : m.write.OpensWith m.size := by
  unfold write
  simp only [Writer.append_assoc]
  exact ⟨_, _, inferInstance, rfl⟩

variable {ctx : Context}

/-- A configuration is read back if its bands are, and if as many are allowed. -/
theorem agree_of_readsBack {m : MeterConfig} (hlimit : ctx.Allows m.bands.length)
    (hbands : ∀ b ∈ m.bands, Element.ReadsBack ctx b) (hlt : m.size < 65536) (c : Cursor)
    (tail : Bytes) : Agree m.write (read ctx) c m.size tail m := by
  unfold write read
  simp only [Writer.append_assoc]
  refine Agree.of_size_eq (Agree.length16 hlt (Agree.u16 (Agree.u32 (Agree.map
    (Element.agree_list_left hlimit hbands hlt _ tail))))) ?_
  unfold size fixedSize
  omega

/-- **A configuration of well-formed bands is read back**, whatever follows it. -/
theorem agree (hreg : ctx.registries = .standard) (hlimit : ctx.elementLimit = none)
    {m : MeterConfig} (h : ∀ b ∈ m.bands, b.WellFormed) (hlt : m.size < 65536) (c : Cursor)
    (tail : Bytes) : Agree m.write (read ctx) c m.size tail m :=
  agree_of_readsBack (.of_unlimited hlimit _) (fun b hb => MeterBand.readsBack hreg (h b hb))
    hlt c tail

end MeterConfig
end OpenFlow
