import Mathlib.Data.List.Nodup
import OpenFlow.Match.Setting
import OpenFlow.Proofs.Match.Walk

/-!
# A match is an ordered map of what was set

However a match is built, it is an ordered map from types of fields to fields.  The types
are those that were set, in the order in which each was set first; the field of a type is
the one that was set last, with its own descriptor, value and mask.  What counts is what was
set: a call that fails leaves no trace.  A match that is read comes of the fields on the wire
as it would come of setting them.

Main definitions:

* `Setting.field`, `Setting.made`: the field that a call sets, and all that calls have set.
* `Match.IsMapOf`: a match as the map of a sequence of fields.

Main statements:

* `Setting.run_perform_of_error`: a call that fails leaves the match as it was.
* `Match.IsMapOf.set`: setting a field preserves that a match is a map.
* `Match.isMapOf_afterAll`: it holds after any calls, and of what is read.
-/

namespace OpenFlow

/-! ## Calls -/

namespace Setting

/-- The field that a call sets, or why there is none. -/
def field : Setting → Except Error OxmField
  | whole f => .ok f
  | exact t value => OxmField.exact t.descriptor value
  | masked t value mask => OxmField.masked t.descriptor value mask

/-- The fields that were set by those calls that did not fail. -/
def made (calls : List Setting) : List OxmField := calls.filterMap fun call => call.field.toOption

theorem made_map_whole (fields : List OxmField) : made (fields.map whole) = fields := by
  unfold made
  rw [List.filterMap_map]
  exact List.filterMap_some

/-- A call sets its field, if there is one. -/
theorem perform_eq (call : Setting) : call.perform = Match.setBuilt call.field := by
  cases call <;> rfl

/-- A call whose field can be built sets it. -/
theorem run_perform_of_ok {call : Setting} {f : OxmField} (h : call.field = .ok f) (m : Match) :
    call.perform.run m = .ok () (m.set f) := by
  rw [perform_eq, h]
  rfl

/-- A call whose field cannot be built fails before it has changed the match. -/
theorem run_perform_of_error {call : Setting} {e : Error} (h : call.field = .error e) (m : Match) :
    call.perform.run m = .error e m := by
  rw [perform_eq, h]
  rfl

end Setting

namespace Match

/-- The match after calls, one after the other. -/
def afterAll (m : Match) (calls : List Setting) : Match := calls.foldl after m

theorem after_of_ok {call : Setting} {f : OxmField} (h : call.field = .ok f) (m : Match) :
    m.after call = m.set f := by
  rw [after, Setting.run_perform_of_ok h]

theorem after_of_error {call : Setting} {e : Error} (h : call.field = .error e) (m : Match) :
    m.after call = m := by
  rw [after, Setting.run_perform_of_error h]

/-- Of any calls, only the fields matter that they set. -/
theorem afterAll_eq_setAll (m : Match) (calls : List Setting) :
    m.afterAll calls = m.setAll (Setting.made calls) := by
  induction calls generalizing m with
  | nil => rfl
  | cons call calls ih =>
    change (m.after call).afterAll calls = _
    rw [ih]
    cases hfield : call.field with
    | ok f =>
      have hmade : Setting.made (call :: calls) = f :: Setting.made calls := by
        rw [Setting.made, List.filterMap_cons_some (by rw [hfield]; rfl)]
        rfl
      rw [hmade, after_of_ok hfield]
      rfl
    | error e =>
      have hmade : Setting.made (call :: calls) = Setting.made calls := by
        rw [Setting.made, List.filterMap_cons_none (by rw [hfield]; rfl)]
        rfl
      rw [hmade, after_of_error hfield]

/-! ## The map -/

/-- What is found for the type of a field in a match is this field. -/
theorem get?_of_mem {m : Match} {f : OxmField} (h : f ∈ m.fields) :
    m.get? f.descriptor = some f := by
  unfold get?
  cases hfound : m.fields.find? (·.hasTypeOf f.descriptor) with
  | none => exact absurd (beq_self_eq_true f.key) (List.find?_eq_none.mp hfound f h)
  | some g =>
    have htype := List.find?_some hfound
    have hkey : g.key = f.key := beq_iff_eq.mp htype
    rw [List.inj_on_of_nodup_map m.nodup (List.mem_of_find?_eq_some hfound) h hkey]

/-- A match is the map of the fields that were set: its types are theirs, each once and where it
was set first, and the field of a type is the last one that was set. -/
structure IsMapOf (m : Match) (set : List OxmField) : Prop where
  keys_eq : m.fields.map OxmField.key = (set.map OxmField.key).eraseDups
  get?_eq : ∀ d, m.get? d = set.findRev? (·.hasTypeOf d)

theorem isMapOf_all : all.IsMapOf [] where
  keys_eq := rfl
  get?_eq _ := rfl

namespace IsMapOf

variable {m : Match} {set : List OxmField}

/-- **Setting a field** makes it the last one of its type; a new type goes to the end. -/
protected theorem set (h : m.IsMapOf set) (f : OxmField) : (m.set f).IsMapOf (set ++ [f]) where
  keys_eq := by
    rw [keys_set, h.keys_eq, List.map_append, List.eraseDups_append]
    by_cases hmem : f.key ∈ set.map OxmField.key
    · have hold : [f.key].removeAll (set.map OxmField.key) = [] := by
        simpa [List.removeAll] using hmem
      rw [if_pos (List.mem_eraseDups.mpr hmem), List.map_singleton, hold, List.eraseDups_nil,
        List.append_nil]
    · have hnew : [f.key].removeAll (set.map OxmField.key) = [f.key] := by
        simpa [List.removeAll] using hmem
      rw [if_neg (fun hfound => hmem (List.mem_eraseDups.mp hfound)), List.map_singleton, hnew]
      rfl
  get?_eq d := by
    rw [get?_set, h.get?_eq, List.findRev?_eq_find?_reverse, List.findRev?_eq_find?_reverse,
      List.reverse_append, List.reverse_singleton, List.singleton_append, List.find?_cons]
    by_cases hkey : f.key = d.key
    · have htype : f.hasTypeOf d = true := beq_iff_eq.mpr hkey
      rw [if_pos hkey, htype]
    · have htype : f.hasTypeOf d = false := beq_eq_false_iff_ne.mpr hkey
      rw [if_neg hkey, htype]

/-- So does setting any fields, one after the other. -/
protected theorem setAll (h : m.IsMapOf set) (fields : List OxmField) :
    (m.setAll fields).IsMapOf (set ++ fields) := by
  induction fields generalizing m set with
  | nil => rwa [List.append_nil]
  | cons f fields ih =>
    have hrest := ih (h.set f)
    rw [List.append_assoc] at hrest
    exact hrest

/-- The field in a match of a type is the last one of the type that was set. -/
theorem findRev?_of_mem (h : m.IsMapOf set) {f : OxmField} (hf : f ∈ m.fields) :
    set.findRev? (·.key == f.key) = some f := by
  have hfound : m.get? f.descriptor = some f := get?_of_mem hf
  rw [h.get?_eq] at hfound
  exact hfound

theorem value?_eq (h : m.IsMapOf set) (d : FieldDescriptor) :
    m.value? d = (set.findRev? (·.hasTypeOf d)).map OxmField.value := by
  rw [value?, h.get?_eq]

end IsMapOf

/-- **A match is an insertion-ordered map**, from the types of the fields that were set to the
fields that were set last.

After any calls its fields are of the types that calls have set, each of them once and in the
order in which they were set first, and with the descriptor, the value and the mask, or no
mask, that were set last; looking for a type finds just this field, or nothing if no call has
set it.  A call fails if its field cannot be built, whatever the match is, and leaves the match
as it was.

A match that is read is the same as if the fields on the wire were set in their order.  Where
unknown types are passed over, it is always read. -/
theorem isMapOf_afterAll :
    (∀ calls : List Setting,
      (all.afterAll calls).IsMapOf (Setting.made calls) ∧
      (∀ f ∈ (all.afterAll calls).fields,
        (Setting.made calls).findRev? (·.key == f.key) = some f) ∧
      ∀ d, (all.afterAll calls).value? d =
        ((Setting.made calls).findRev? (·.hasTypeOf d)).map OxmField.value) ∧
    (∀ (m : Match) (call : Setting),
      (∀ f, call.field = .ok f →
        call.perform.run m = .ok () (m.set f) ∧ m.after call = m.set f) ∧
      ∀ e, call.field = .error e → call.perform.run m = .error e m ∧ m.after call = m) ∧
    ∀ (ctx : Context) (buf : Bytes) (p : Nat) (declared : UInt16),
      Bytes.peekHeader? (buf.drop p) = some (oxmCode, declared) → headerSize ≤ declared.toNat →
        (ctx.unknownFields ≠ .reject → ∃ fields,
          FieldsIn ctx (fieldRegion (buf.drop p) declared) fields) ∧
        ∀ m, ((Message.read ctx).run (Cursor.at buf p)).result = .ok m ↔
          ∃ fields, FieldsIn ctx (fieldRegion (buf.drop p) declared) fields ∧
            m = all.afterAll (fields.map .whole) := by
  refine ⟨fun calls => ?_, fun m call => ⟨fun f hfield => ?_, fun e hfield => ?_⟩,
    fun ctx buf p declared hpeek hheader => ⟨fun hpolicy => exists_fieldsIn hpolicy _, ?_⟩⟩
  · have hmap : (all.afterAll calls).IsMapOf (Setting.made calls) := by
      rw [afterAll_eq_setAll]
      exact isMapOf_all.setAll (Setting.made calls)
    exact ⟨hmap, fun f hf => hmap.findRev?_of_mem hf, hmap.value?_eq⟩
  · exact ⟨Setting.run_perform_of_ok hfield m, after_of_ok hfield m⟩
  · exact ⟨Setting.run_perform_of_error hfield m, after_of_error hfield m⟩
  · intro m
    have hafter (fields : List OxmField) :
        all.afterAll (fields.map .whole) = ofFields fields := by
      rw [afterAll_eq_setAll, Setting.made_map_whole]
      rfl
    simp only [hafter]
    exact result_read_eq_ok_iff hpeek hheader

/-- A port, the same with a mask, which it does not take, a protocol, the same at the wrong width,
and another port. -/
def portCalls : List Setting :=
  [.exact .tcpDst (.u16 80), .masked .tcpDst (.u16 80) (.u16 255), .exact .ipProto (.u8 6),
   .exact .ipProto (.u16 6), .exact .tcpDst (.u16 443)]

/-- The two ports of `untidy`. -/
def untidyPorts : List OxmField :=
  Setting.made [.exact .tcpDst (.u16 80), .exact .tcpDst (.u16 443)]

/-- Two of the calls fail, and the other port has replaced the first one, in front of the protocol;
so it has on the wire. -/
theorem isMapOf_afterAll_ports :
    (all.afterAll portCalls).fields.map OxmField.key = [(basicClass, 14), (basicClass, 10)] ∧
      (all.afterAll portCalls).value? FieldType.tcpDst.descriptor = some (.u16 443) ∧
      all.after (.exact .ipProto (.u16 6)) = all ∧
      ((Message.read {}).run (Cursor.at untidy 1)).result =
        .ok (all.afterAll (untidyPorts.map .whole)) := by
  obtain ⟨hcalls, hcall, hread⟩ := isMapOf_afterAll
  obtain ⟨hmap, -, hvalue⟩ := hcalls portCalls
  have hfields : FieldsIn {} (fieldRegion (untidy.drop 1) 26) untidyPorts := by
    refine result_readFields_eq_ok_iff (c := Cursor.start []).mp ?_
    with_unfolding_all rfl
  refine ⟨hmap.keys_eq.trans (by decide), (hvalue _).trans (by decide),
    ((hcall all (.exact .ipProto (.u16 6))).2 _ rfl).2, ?_⟩
  exact ((hread {} untidy 1 26 rfl (by decide)).2 _).mpr ⟨untidyPorts, hfields, rfl⟩

end Match
end OpenFlow
