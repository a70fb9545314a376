import OpenFlow.Proofs.Element.Errors
import OpenFlow.Proofs.Match.Walk

/-!
# What reading a match fails with

All that the fixed layout sets is of the width that its field takes, and where it sets a mask
the field takes one.  So nothing in this layout is refused, and it is read wherever there is
enough input.  A match of fields ends at a field that would run past its end, so it does not
fail for want of input behind its header.  What is left is a header that declares too little,
a header of neither layout, and a field of an unknown type where such fields are refused.

Main definitions:

* `Context.Declines`: the errors that are not want of input.
* `Reader.Declining`: readers with these errors only, beside want of input.

Main statements:

* `Match.FixedLayout.refuses_readBody`: the fixed layout fails for want of input only.
* `Match.refuses_readFields`: the fields of a region fail only where a field is refused.
-/

namespace OpenFlow

/-- An error about a header that contradicts itself, or about a field of an unknown type where such
fields are refused. -/
def Context.Declines (ctx : Context) (e : Error) : Prop :=
  (∃ fault, e = .malformedHeader fault) ∨ ctx.Rejects e

namespace Reader

variable {α β : Type} {ctx : Context}

/-- A reader that only fails where the input ends too early, or with what the context declines. -/
class Declining (ctx : Context) (r : Reader α) : Prop where
  refuses : r.Refuses fun e => e.isTruncation = true ∨ ctx.Declines e

namespace Declining

instance (priority := low) (r : Reader α) [Truncating r] : Declining ctx r :=
  ⟨.of_truncating r fun _ => Or.inl⟩

instance (r : Reader α) (f : α → Reader β) [hr : Declining ctx r]
    [hf : ∀ a, Declining ctx (f a)] : Declining ctx (r >>= f) :=
  ⟨.bind hr.refuses fun a => (hf a).refuses⟩

instance (p : Prop) [Decidable p] (r r' : Reader α) [Declining ctx r] [Declining ctx r'] :
    Declining ctx (if p then r else r') := by
  split <;> infer_instance

instance (fault : HeaderFault) : Declining ctx (fail (.malformedHeader fault) : Reader α) :=
  ⟨.fail (Or.inr (Or.inl ⟨fault, rfl⟩))⟩

theorem of_refuses {r : Reader α} {P : Error → Prop} (hr : r.Refuses P)
    (h : ∀ e, P e → ctx.Declines e) : Declining ctx r :=
  ⟨hr.mono fun e he => Or.inr (h e he)⟩

end Declining
end Reader

/-! ## The fixed layout -/

namespace OxmField

variable {d : FieldDescriptor} {value mask : OxmValue}

/-- A value that fits makes a field. -/
theorem exact_of_fits (h : value.fits d.width.toNat = true) :
    exact d value = .ok ⟨d, value, none, h, rfl⟩ := dif_pos h

/-- A value and a mask that fit make a field of a type that takes a mask. -/
theorem masked_of_fits (hmaskable : d.maskable = true) (hvalue : value.fits d.width.toNat = true)
    (hmask : mask.fits d.width.toNat = true) :
    masked d value mask = .ok ⟨d, value, some mask, hvalue, hmask⟩ := by
  unfold masked
  rw [if_pos hmaskable, dif_pos hvalue, dif_pos hmask]

end OxmField

namespace Match

open Reader

namespace FixedLayout

variable {m : Match} {w flag : UInt32} {t : FieldType} {value ignored : OxmValue}
  {P : Error → Prop}

/-- A value of the width of its field is set. -/
theorem refuses_setUnlessWild (h : value.fits t.descriptor.width.toNat = true) :
    (setUnlessWild m w flag t value).Refuses P := by
  unfold setUnlessWild setExact
  rw [OxmField.exact_of_fits h]
  split
  · exact .pure _
  · exact .pure m

/-- A value and a mask of the width of their field are set, if it takes a mask. -/
theorem refuses_setInverse (hmaskable : t.descriptor.maskable = true)
    (hvalue : value.fits t.descriptor.width.toNat = true)
    (hignored : ignored.fits t.descriptor.width.toNat = true) :
    (setInverse m t value ignored).Refuses P := by
  unfold setInverse setExact setMasked
  rw [OxmField.exact_of_fits hvalue, OxmField.masked_of_fits hmaskable hvalue hignored]
  split
  · exact .pure _
  · exact .pure _

/-- An Ethernet address and its mask are six bytes each. -/
theorem refuses_readEthernet (hmaskable : t.descriptor.maskable = true)
    (hwidth : t.descriptor.width = 6) : (readEthernet m t).Refuses (·.isTruncation = true) := by
  have hfits {bs : Bytes} (h : bs.length = 6) :
      (OxmValue.bytes bs).fits t.descriptor.width.toNat = true := by
    rw [hwidth, OxmValue.fits, h]
    rfl
  refine .bind_of_yields Truncating.refuses (yields_bytes 6) fun address haddress => ?_
  refine .bind_of_yields Truncating.refuses (yields_bytes 6) fun ignored hignored => ?_
  exact refuses_setInverse hmaskable (hfits haddress) (hfits hignored)

theorem refuses_readIpv4 (hmaskable : t.descriptor.maskable = true)
    (hwidth : t.descriptor.width = 4) : (readIpv4 m t).Refuses (·.isTruncation = true) := by
  have hfits (n : UInt32) : (OxmValue.u32 n).fits t.descriptor.width.toNat = true := by
    rw [hwidth]
    rfl
  refine .bind Truncating.refuses fun address => .bind Truncating.refuses fun ignored => ?_
  split
  · exact .pure m
  · exact refuses_setInverse hmaskable (hfits address) (hfits ignored)

theorem refuses_readTransport {source destination : FieldType}
    (hsource : source.descriptor.width = 2) (hdestination : destination.descriptor.width = 2) :
    (readTransport m w source destination).Refuses (·.isTruncation = true) := by
  have hfits {t : FieldType} (hwidth : t.descriptor.width = 2) (n : UInt16) :
      (OxmValue.u16 n).fits t.descriptor.width.toNat = true := by
    rw [hwidth]
    rfl
  exact .bind Truncating.refuses fun port => .bind (refuses_setUnlessWild (hfits hsource port))
    fun _ => .bind Truncating.refuses fun port =>
    .bind (refuses_setUnlessWild (hfits hdestination port)) fun _ =>
    .bind Truncating.refuses fun _ => .bind (refuses_setUnlessWild rfl) fun _ =>
    .bind Truncating.refuses fun _ => .bind (refuses_setUnlessWild rfl) fun _ =>
    .bind Truncating.refuses fun _ => .bind Truncating.refuses fun _ =>
    .bind Truncating.refuses fun _ => refuses_setInverse rfl rfl rfl

/-- The ports of all protocols are 16-bit words. -/
theorem width_portFields {protocol : UInt8} {source destination : FieldType}
    (h : portFields? protocol = some (source, destination)) :
    source.descriptor.width = 2 ∧ destination.descriptor.width = 2 := by
  unfold portFields? at h
  split_ifs at h <;> cases h <;> exact ⟨rfl, rfl⟩

theorem refuses_readNetwork : (readNetwork m w).Refuses (·.isTruncation = true) := by
  refine .bind Truncating.refuses fun _ => .bind (refuses_setUnlessWild rfl) fun _ =>
    .bind Truncating.refuses fun protocol => .bind (refuses_setUnlessWild rfl) fun _ =>
    .bind (refuses_readIpv4 rfl rfl) fun _ => .bind (refuses_readIpv4 rfl rfl) fun m => ?_
  by_cases hexact : Wildcards.isExact w Wildcards.protocol = true
  · rw [if_pos hexact]
    cases hports : portFields? protocol with
    | none => exact .pure m
    | some ports =>
      obtain ⟨hsource, hdestination⟩ := width_portFields hports
      exact refuses_readTransport hsource hdestination
  · rw [if_neg hexact]
    exact .pure m

/-- **A match of the fixed layout fails for want of input only**, whatever its bytes are. -/
theorem refuses_readBody : readBody.Refuses (·.isTruncation = true) := by
  refine .bind Truncating.refuses fun _ => .bind Truncating.refuses fun w =>
    .bind (refuses_setUnlessWild rfl) fun _ => .bind (refuses_readEthernet rfl rfl) fun _ =>
    .bind (refuses_readEthernet rfl rfl) fun _ => .bind Truncating.refuses fun _ =>
    .bind (refuses_setUnlessWild rfl) fun _ => .bind Truncating.refuses fun _ =>
    .bind (refuses_setUnlessWild rfl) fun _ => .bind Truncating.refuses fun _ =>
    .bind Truncating.refuses fun etherType => .bind (refuses_setUnlessWild rfl) fun m => ?_
  split
  · exact refuses_readNetwork
  · exact .pure m

instance : Truncating readBody := ⟨refuses_readBody⟩

end FixedLayout

/-! ## Matches of both layouts -/

variable {ctx : Context} {region : Bytes}

/-- The type that is refused is not in the catalog. -/
theorem RefusedIn.lookup_eq {oxmClass : UInt16} {field : UInt8}
    (h : RefusedIn ctx region oxmClass field) :
    ctx.registries.fields.lookup? oxmClass field = none := by
  induction h with
  | here hpolicy hpeek hlookup => exact hlookup
  | behind hopens hrest ih => exact ih

/-- **The fields of a region fail only where a field is refused.** -/
theorem refuses_readFields (ctx : Context) (region : Bytes) :
    (readFields ctx region).Refuses ctx.Rejects := by
  intro c e herror
  obtain ⟨oxmClass, field, hrefused, rfl⟩ := result_readFields_eq_error_iff.mp herror
  exact ⟨hrefused.policy_eq, oxmClass, field, hrefused.lookup_eq, rfl⟩

instance (ctx : Context) (region : Bytes) : Declining ctx (readFields ctx region) :=
  .of_refuses (refuses_readFields ctx region) fun _ => Or.inr

instance (ctx : Context) : Declining ctx (read ctx) := by
  unfold read
  infer_instance

end Match
end OpenFlow
