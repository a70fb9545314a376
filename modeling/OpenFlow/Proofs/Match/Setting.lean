import OpenFlow.Match.Basic

/-!
# Setting fields one after the other

A field of a new type goes to the end.  So setting fields of distinct types one
after the other lists them as they came, and a match is what setting its own
fields makes (`Match.ofFields_fields`).  Fields of types that are not new replace
others: what is set is all that a match holds (`Match.mem_of_mem_fields_ofFields`), and it
takes no more room than all that was set (`Match.span_ofFields_le`).
-/

namespace OpenFlow
namespace Match

theorem update_of_notMem {f : OxmField} {fields : List OxmField}
    (h : f.key ∉ fields.map OxmField.key) : update f fields = fields ++ [f] := by
  induction fields with
  | nil => rfl
  | cons g rest ih =>
    rw [List.map_cons, List.mem_cons, not_or] at h
    rw [update, if_neg (Ne.symm h.1), ih h.2, List.cons_append]

/-- Fields of new and distinct types are set at the end, in their order. -/
theorem fields_setAll (m : Match) (fields : List OxmField)
    (h : ((m.fields ++ fields).map OxmField.key).Nodup) :
    (m.setAll fields).fields = m.fields ++ fields := by
  induction fields generalizing m with
  | nil => exact (List.append_nil _).symm
  | cons f rest ih =>
    have hnew : f.key ∉ m.fields.map OxmField.key := by
      intro hmem
      rw [List.map_append, List.map_cons] at h
      exact (List.nodup_append.mp h).2.2 f.key hmem f.key (List.mem_cons_self ..) rfl
    have hset : (m.set f).fields = m.fields ++ [f] := update_of_notMem hnew
    have hstep := ih (m.set f) (by rwa [hset, List.append_assoc])
    rw [hset, List.append_assoc] at hstep
    exact hstep

/-- Fields of distinct types make up a match as they came. -/
theorem fields_ofFields {fields : List OxmField} (h : (fields.map OxmField.key).Nodup) :
    (ofFields fields).fields = fields :=
  fields_setAll all fields h

/-- **A match is what setting its own fields makes.** -/
theorem ofFields_fields (m : Match) : ofFields m.fields = m := by
  have hfields := fields_ofFields m.nodup
  obtain ⟨fields, hn⟩ := m
  generalize ofFields fields = m' at hfields
  obtain ⟨fields', hn'⟩ := m'
  subst hfields
  rfl

/-! ## What is in a match -/

/-- After setting a field, a match holds that field and others that it held before. -/
theorem mem_of_mem_update {f g : OxmField} {fields : List OxmField} (h : g ∈ update f fields) :
    g = f ∨ g ∈ fields := by
  induction fields with
  | nil => exact Or.inl (List.mem_singleton.mp h)
  | cons g' rest ih =>
    by_cases hk : g'.key = f.key
    · rw [update, if_pos hk, List.mem_cons] at h
      exact h.imp_right (List.mem_cons_of_mem g')
    · rw [update, if_neg hk, List.mem_cons] at h
      rcases h with rfl | h
      · exact Or.inr (List.mem_cons_self ..)
      · exact (ih h).imp_right (List.mem_cons_of_mem g')

theorem mem_of_mem_fields_setAll {m : Match} {f : OxmField} {fields : List OxmField}
    (h : f ∈ (m.setAll fields).fields) : f ∈ m.fields ∨ f ∈ fields := by
  induction fields generalizing m with
  | nil => exact Or.inl h
  | cons g rest ih =>
    rcases ih (m := m.set g) h with h | h
    · rcases mem_of_mem_update h with rfl | h
      · exact Or.inr (List.mem_cons_self ..)
      · exact Or.inl h
    · exact Or.inr (List.mem_cons_of_mem g h)

/-- A match holds no field that was not set. -/
theorem mem_of_mem_fields_ofFields {f : OxmField} {fields : List OxmField}
    (h : f ∈ (ofFields fields).fields) : f ∈ fields :=
  (mem_of_mem_fields_setAll h).resolve_left List.not_mem_nil

/-! ## How much room it takes -/

/-- A field takes the place of another or its own room behind the others. -/
theorem total_size_update_le (f : OxmField) (fields : List OxmField) :
    total OxmField.size (update f fields) ≤ f.size + total OxmField.size fields := by
  induction fields with
  | nil => exact Nat.le_refl _
  | cons g rest ih =>
    by_cases hk : g.key = f.key
    · rw [update, if_pos hk, total_cons, total_cons]
      omega
    · rw [update, if_neg hk, total_cons, total_cons]
      omega

theorem span_setAll_le (m : Match) (fields : List OxmField) :
    (m.setAll fields).span ≤ m.span + total OxmField.size fields := by
  induction fields generalizing m with
  | nil => exact Nat.le_refl _
  | cons f rest ih =>
    have hset : (m.set f).span ≤ m.span + f.size := by
      have hupdate := total_size_update_le f m.fields
      change headerSize + total OxmField.size (update f m.fields) ≤
        headerSize + total OxmField.size m.fields + f.size
      omega
    have hrest : ((m.set f).setAll rest).span ≤ (m.set f).span + total OxmField.size rest :=
      ih (m.set f)
    change ((m.set f).setAll rest).span ≤ _
    rw [total_cons]
    omega

/-- Fields that are set one after the other take no more room than all of them. -/
theorem span_ofFields_le (fields : List OxmField) :
    (ofFields fields).span ≤ headerSize + total OxmField.size fields :=
  span_setAll_le all fields

end Match
end OpenFlow
