import OpenFlow.Proofs.Match.Walk

/-!
# Match fields that stand alone

With the width that the catalog gives for its type, and the mask bit of its header, a field says
itself where it ends.  It is read back from its wire form whatever follows, and no part of its wire
form is read as a field: wherever it is cut, in the header, in the value or in the mask, the input
ends too early.

How a field came about does not matter.  One that is built has a value in the form that its width
calls for, since it is refused otherwise, and one that is read has it because its value is made of
so many bytes.  A field that is read may be one that cannot be built: its type may take no mask,
and it has one all the same.  Whatever length its header had on the wire, it is written with the
length of its payload.

Main definition:

* `OxmField.SelfDelimiting`: a field is read from the whole of its wire form, and from no less.

Main statement:

* `OxmField.selfDelimiting_of_built_or_read`: all fields are like that.
-/

namespace OpenFlow
namespace OxmField

variable {ctx : Context} {f : OxmField}

/-! ## A wire form that is cut -/

/-- A field is not read from a part of its wire form. -/
theorem result_read_take (h : ctx.registries.fields.Finds f.descriptor) {n : Nat}
    (hn : n < f.size) :
    ((read ctx.registries.fields).run (Cursor.start (f.toBytes.take n))).result =
      .error (.truncatedInput .bytes) := by
  have hlength : (f.toBytes.take n).length = n :=
    List.length_take_of_le (Nat.le_of_lt (f.length_toBytes.symm ▸ hn))
  have hremaining : (Cursor.start (f.toBytes.take n)).remaining = n := hlength
  by_cases hfour : n < OxmHeader.size
  · rw [run_read_of_remaining_lt _ (hremaining.symm ▸ hfour)]
  · have hpeek := peek?_take_toBytes h.field_lt (Nat.le_of_not_lt hfour)
    have hlookup : ctx.registries.fields.lookup? f.header.oxmClass f.header.field =
        some f.descriptor := h.holds
    rw [run_read_of_lt (c := Cursor.start (f.toBytes.take n)) hpeek hlookup (hremaining.symm ▸ hn)]

/-- A field is written in as many bytes as its size says, read from them whatever follows, and not
read from any part of them. -/
def SelfDelimiting (ctx : Context) (f : OxmField) : Prop :=
  ∃ b, Message.encode f = .ok b ∧ b.length = Message.size f ∧
    (∀ s, Message.decode ctx (b ++ s) = .ok (f, Message.size f)) ∧
    ∀ n < b.length, (Message.decode ctx (b.take n) : Except Error (OxmField × Nat)) =
      .error (.truncatedInput .bytes)

/-- A field over a descriptor that the catalog finds is read from all of its wire form. -/
theorem selfDelimiting_of_finds (h : ctx.registries.fields.Finds f.descriptor) :
    SelfDelimiting ctx f := by
  refine ⟨f.toBytes, f.encode_write, f.length_toBytes, fun s => ?_, fun n hn => ?_⟩
  · exact Message.decode_of_encode (fun c => agree ctx.registries.fields f h c s) f.encode_write
  · exact Message.decode_of_result_eq_error (result_read_take h (f.length_toBytes ▸ hn))

/-! ## Fields that were read -/

/-- A field that was read has a descriptor that the catalog finds. -/
theorem finds_of_run_read {catalog : FieldCatalog} {c : Cursor}
    (h : ((read catalog).run c).result = .ok f) : catalog.Finds f.descriptor := by
  cases hpeek : OxmHeader.peek? c.rest with
  | none =>
    have hshort : c.remaining < OxmHeader.size :=
      c.length_rest_eq_remaining ▸ OxmHeader.length_lt_of_peek?_eq_none hpeek
    rw [run_read_of_remaining_lt catalog hshort] at h
    cases h
  | some header => exact FieldCatalog.finds_of_peek? hpeek (of_run_read h hpeek).1

/-- **Fields are read back and delimit themselves.**  So are those that are built, with a mask or
without, of a descriptor of any class, code and width that the catalog has for its type; and so are
all those that are read, whatever they are read from. -/
theorem selfDelimiting_of_built_or_read (ctx : Context) :
    (∀ (name : String) (oxmClass : UInt16) (field width : UInt8) (maskable : Bool)
        (value : OxmValue) (mask : Option OxmValue) (f : OxmField),
      let d := FieldDescriptor.ofCodes name oxmClass field width maskable
      ctx.registries.fields.Holds d → build d value mask = .ok f → SelfDelimiting ctx f) ∧
    ∀ (c : Cursor) (f : OxmField),
      ((read ctx.registries.fields).run c).result = .ok f → SelfDelimiting ctx f := by
  constructor
  · intro name oxmClass field width maskable value mask f d hholds hbuild
    refine selfDelimiting_of_finds ?_
    rw [descriptor_of_build hbuild]
    exact ⟨hholds, FieldDescriptor.field_ofCodes_lt name oxmClass field width maskable⟩
  · intro c f hread
    exact selfDelimiting_of_finds (finds_of_run_read hread)

/-- A label with a mask, and an Ethernet type with a mask, which its type does not take, behind a
length that is wrong. -/
theorem selfDelimiting_of_built_or_read_label :
    (Message.decode Match.strict ([0, 1, 1, 3, 4, 5, 6, 255, 255, 0] ++ [9]) =
        .ok ((⟨Match.label, .bytes [4, 5, 6], some (.bytes [255, 255, 0]), rfl, rfl⟩ : OxmField),
          10) ∧
      (Message.decode Match.strict [0, 1, 1, 3, 4, 5, 6, 255, 255] :
        Except Error (OxmField × Nat)) = .error (.truncatedInput .bytes)) ∧
    SelfDelimiting {}
      ⟨FieldType.ethType.descriptor, .u16 0x0800, some (.u16 0xffff), rfl, rfl⟩ := by
  constructor
  · obtain ⟨b, hb, hlen, hback, hcut⟩ := (selfDelimiting_of_built_or_read Match.strict).1
      "LABEL" 1 0 3 true (.bytes [4, 5, 6]) (some (.bytes [255, 255, 0])) _ rfl rfl
    obtain rfl : [0, 1, 1, 3, 4, 5, 6, 255, 255, 0] = b := Except.ok.inj hb
    exact ⟨hback [9], hcut 9 (by decide)⟩
  · refine (selfDelimiting_of_built_or_read {}).2
      (Cursor.start [0x80, 0, 11, 9, 8, 0, 255, 255]) _ ?_
    with_unfolding_all rfl

end OxmField
end OpenFlow
