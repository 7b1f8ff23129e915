import WireSchema.Proofs.Writing

/-! Encoding as a run over the items of a value, up to the first that does not fit. -/

namespace WireSchema

namespace WireItem

variable {item : WireItem} {bytes : List UInt8} {position : Nat}

theorem write_measuring_of_lt (encodable : item.Encodable)
    (short : position + (item.layout position).length < wordLimit) :
    item.write ⟨.measure, position⟩ =
      .ok () ⟨.measure, position + (item.layout position).length⟩ := by
  rw [write_eq_append encodable]
  exact Writer.append_measuring_of_lt item.width_isPowerOfTwo item.width_lt short

theorem write_measuring_of_le (encodable : item.Encodable) (inside : position < wordLimit)
    (passed : wordLimit ≤ position + (item.layout position).length) :
    item.write ⟨.measure, position⟩ = .error .panic ⟨.measure, position⟩ := by
  rw [write_eq_append encodable]
  exact Writer.append_measuring_of_le item.width_isPowerOfTwo item.width_lt inside
    (length_layout_lt position encodable) passed

theorem write_of_le (encodable : item.Encodable)
    (fits : position + (item.layout position).length ≤ bytes.length) :
    item.write ⟨.buffer bytes, position⟩ =
      .ok () ⟨.buffer (overwrite bytes position (item.layout position)),
        position + (item.layout position).length⟩ := by
  rw [write_eq_append encodable]
  exact Writer.append_of_le item.width_isPowerOfTwo (length_layout_lt position encodable) fits

theorem write_of_lt (encodable : item.Encodable) (inside : position ≤ bytes.length)
    (exceeds : bytes.length < position + (item.layout position).length) :
    item.write ⟨.buffer bytes, position⟩ =
      .error (.answered (.encodeOverflow position (item.layout position).length bytes.length))
        ⟨.buffer bytes, position⟩ := by
  rw [write_eq_append encodable]
  exact Writer.append_of_lt item.width_isPowerOfTwo (length_layout_lt position encodable) inside
    exceeds

end WireItem

section Items

variable {α β : Type} {encode : α → Write Unit} {content : α → β} {items : β → List WireItem}

theorem encodeEach_eq_items
    (whole : ∀ value, encode value = encodeEach WireItem.write (items (content value)))
    (values : List α) :
    encodeEach encode values =
      encodeEach WireItem.write ((values.map content).flatMap items) := by
  rw [encodeEach_flatMap encode WireItem.write (fun value => items (content value)) whole,
    List.flatMap_map]

theorem encodeEach_vector_eq_items
    (whole : ∀ value, encode value = encodeEach WireItem.write (items (content value)))
    {n : Nat} (values : Vector α n) :
    encodeEach encode values.toList =
      encodeEach WireItem.write ((values.map content).toList.flatMap items) := by
  rw [encodeEach_eq_items whole, Vector.toList_map]

theorem Sequence.encode_eq_items
    (whole : ∀ value, encode value = encodeEach WireItem.write (items (content value)))
    (s : Sequence α) :
    s.encode encode =
      encodeEach WireItem.write (sequenceItems items (s.toList.map content)) := by
  rw [Sequence.encode, encodeEach_eq_items whole, sequenceItems, List.length_map]
  rfl

end Items

mutual

/-- Encoding a value is writing its items in order, whatever storage the value has. -/
theorem WireType.encode_eq_items : (type : WireType) → (value : type.Value) →
    type.encode value = encodeEach WireItem.write (type.items (type.content value))
  | .scalar _, _ => by
    rw [WireType.items, encodeEach_singleton]
    rfl
  | .string, _ => by
    rw [WireType.items, encodeEach_singleton]
    rfl
  | .array element _, values => encodeEach_vector_eq_items element.encode_eq_items values
  | .sequence element, values => Sequence.encode_eq_items element.encode_eq_items values
  | .record _ _ fields, values => fields.encode_eq_items values
  | .alias _ target, value => target.encode_eq_items value

theorem Fields.encode_eq_items : (fields : Fields) → (values : fields.Value) →
    fields.encode values = encodeEach WireItem.write (fields.items (fields.content values))
  | .nil, () => rfl
  | .cons _ type rest, (value, values) => by
    rw [Fields.encode, Fields.content, Fields.items, encodeEach_append, type.encode_eq_items,
      rest.encode_eq_items]

end

section Run

variable {items : List WireItem} {bytes : List UInt8} {position : Nat}

theorem run_measuring_of_lt (encodable : ∀ item ∈ items, item.Encodable)
    (short : position + (layoutEach WireItem.layout position items).length < wordLimit) :
    encodeEach WireItem.write items ⟨.measure, position⟩ =
      .ok () ⟨.measure, position + (layoutEach WireItem.layout position items).length⟩ := by
  induction items generalizing position with
  | nil => rfl
  | cons item rest ih =>
    rw [layoutEach, List.length_append] at short ⊢
    obtain ⟨encodableItem, encodableRest⟩ := List.forall_mem_cons.mp encodable
    have first := WireItem.write_measuring_of_lt encodableItem
      (show position + (item.layout position).length < wordLimit by omega)
    rw [encodeEach, bind_of_ok first, ih encodableRest (by omega), Nat.add_assoc]

/-- The run panics at the item that passes the end of the word. -/
theorem run_measuring_of_le (encodable : ∀ item ∈ items, item.Encodable)
    (inside : position < wordLimit)
    (passed : wordLimit ≤ position + (layoutEach WireItem.layout position items).length) :
    ∃ w, encodeEach WireItem.write items ⟨.measure, position⟩ = .error .panic w := by
  induction items generalizing position with
  | nil =>
    rw [layoutEach, List.length_nil] at passed
    omega
  | cons item rest ih =>
    obtain ⟨encodableItem, encodableRest⟩ := List.forall_mem_cons.mp encodable
    rw [layoutEach, List.length_append] at passed
    by_cases short : position + (item.layout position).length < wordLimit
    · rw [encodeEach, bind_of_ok (WireItem.write_measuring_of_lt encodableItem short)]
      exact ih encodableRest short (by omega)
    · have stopped := WireItem.write_measuring_of_le encodableItem inside (Nat.le_of_not_lt short)
      exact ⟨_, by rw [encodeEach, bind_of_error stopped]⟩

theorem run_of_le (encodable : ∀ item ∈ items, item.Encodable)
    (fits : position + (layoutEach WireItem.layout position items).length ≤ bytes.length) :
    encodeEach WireItem.write items ⟨.buffer bytes, position⟩ =
      .ok () ⟨.buffer (overwrite bytes position (layoutEach WireItem.layout position items)),
        position + (layoutEach WireItem.layout position items).length⟩ := by
  induction items generalizing bytes position with
  | nil =>
    rw [layoutEach, overwrite_nil]
    rfl
  | cons item rest ih =>
    rw [layoutEach, List.length_append] at fits
    have room : position + (item.layout position).length ≤ bytes.length := by omega
    have same := length_overwrite bytes (item.layout position) room
    obtain ⟨encodableItem, encodableRest⟩ := List.forall_mem_cons.mp encodable
    rw [encodeEach, bind_of_ok (WireItem.write_of_le encodableItem room),
      ih encodableRest (by omega), overwrite_overwrite bytes _ _ (by omega), layoutEach,
      List.length_append, Nat.add_assoc]

/-- The run stops at the first item that reaches past the end. -/
theorem run_of_lt (encodable : ∀ item ∈ items, item.Encodable) (inside : position ≤ bytes.length)
    (exceeds : bytes.length < position + (layoutEach WireItem.layout position items).length) :
    ∃ before item after, items = before ++ item :: after ∧
      ∃ offset, offset = position + (layoutEach WireItem.layout position before).length ∧
        offset ≤ bytes.length ∧ bytes.length < offset + (item.layout offset).length ∧
        encodeEach WireItem.write items ⟨.buffer bytes, position⟩ =
          .error (.answered (.encodeOverflow offset (item.layout offset).length bytes.length))
            ⟨.buffer (overwrite bytes position (layoutEach WireItem.layout position before)),
              offset⟩ := by
  -- Every item that is written changes the buffer, so the induction is over all buffers.
  induction items generalizing bytes position with
  | nil =>
    rw [layoutEach, List.length_nil] at exceeds
    omega
  | cons item rest ih =>
    obtain ⟨encodableItem, encodableRest⟩ := List.forall_mem_cons.mp encodable
    rw [layoutEach, List.length_append] at exceeds
    by_cases room : position + (item.layout position).length ≤ bytes.length
    · have same := length_overwrite bytes (item.layout position) room
      rw [← same] at room
      have further : (overwrite bytes position (item.layout position)).length <
          position + (item.layout position).length + (layoutEach WireItem.layout
            (position + (item.layout position).length) rest).length := by
        omega
      obtain ⟨before, stuck, after, parts, offset, place, low, high, stopped⟩ :=
        ih encodableRest room further
      rw [same] at room low high stopped
      rw [overwrite_overwrite bytes _ _ inside] at stopped
      refine ⟨item :: before, stuck, after, ?_, offset, ?_, low, high, ?_⟩
      · rw [parts, List.cons_append]
      · rw [place, layoutEach, List.length_append, Nat.add_assoc]
      · rw [encodeEach, bind_of_ok (WireItem.write_of_le encodableItem room), stopped, layoutEach]
    · have stopped := WireItem.write_of_lt encodableItem inside (Nat.lt_of_not_le room)
      refine ⟨[], item, rest, rfl, position, rfl, inside, Nat.lt_of_not_le room, ?_⟩
      rw [encodeEach, bind_of_error stopped, layoutEach, overwrite_nil]

theorem encodable_of_run {w after : Writer}
    (ran : encodeEach WireItem.write items w = .ok () after) :
    ∀ item ∈ items, item.Encodable := by
  induction items generalizing w with
  | nil =>
    intro item member
    cases member
  | cons item rest ih =>
    obtain ⟨⟨⟩, middle, first, others⟩ := bind_eq_ok.mp ran
    refine List.forall_mem_cons.mpr ⟨?_, ih others⟩
    by_contra excess
    obtain ⟨fault, failed⟩ := WireItem.write_of_not_encodable excess
    rw [failed] at first
    cases first

theorem run_buffer_ne_panic (items : List WireItem) (bytes : List UInt8) (position : Nat)
    (w : Writer) : encodeEach WireItem.write items ⟨.buffer bytes, position⟩ ≠ .error .panic w := by
  intro panicked
  induction items generalizing bytes position with
  | nil => cases panicked
  | cons item rest ih =>
    rcases item.write_buffer_cases bytes position with ⟨after, next, written⟩ | ⟨e, failed⟩
    · rw [encodeEach, bind_of_ok written] at panicked
      exact ih after next panicked
    · rw [encodeEach, bind_of_error failed] at panicked
      cases panicked

/-- Short of the end of the word, the run answers an error at the item over its limit. -/
theorem run_measuring_of_not_encodable (excess : ∃ item ∈ items, ¬ item.Encodable)
    (short : position + (layoutEach WireItem.layout position items).length < wordLimit) :
    ∃ fault after, encodeEach WireItem.write items ⟨.measure, position⟩ =
      .error (.answered (.invalidData fault)) after := by
  induction items generalizing position with
  | nil =>
    rcases excess with ⟨_, member, _⟩
    cases member
  | cons item rest ih =>
    rw [layoutEach, List.length_append] at short
    by_cases encodable : item.Encodable
    · have later : ∃ other ∈ rest, ¬ other.Encodable := by
        rcases excess with ⟨other, member, large⟩
        rcases List.mem_cons.mp member with rfl | member
        · exact (large encodable).elim
        · exact ⟨other, member, large⟩
      rw [encodeEach, bind_of_ok (WireItem.write_measuring_of_lt encodable (by omega))]
      exact ih later (by omega)
    · obtain ⟨fault, failed⟩ := WireItem.write_of_not_encodable encodable
      exact ⟨fault, _, by rw [encodeEach, bind_of_error (failed _)]⟩

end Run

end WireSchema
