import WireSchema.Proofs.Encoding

/-! Serializing against the layout, into buffers of any length. -/

namespace WireSchema.Envelope

theorem overwrite_zero (bytes piece : List UInt8) :
    overwrite bytes 0 piece = piece ++ bytes.drop piece.length := by
  rw [overwrite, List.take_zero, List.nil_append, Nat.zero_add]

theorem length_layoutEach_le {α : Type} (layout : Nat → α → List UInt8) (offset : Nat)
    {front items : List α} (initial : front <+: items) :
    (layoutEach layout offset front).length ≤ (layoutEach layout offset items).length := by
  rcases initial with ⟨back, rfl⟩
  rw [layoutEach_append, List.length_append]
  exact Nat.le_add_right _ _

/-- The item at which `capacity` bytes of payload run out: it begins inside them and ends
outside. -/
structure Shortfall (items : List WireItem) (capacity : Nat) where
  before : List WireItem
  item : WireItem
  after : List WireItem
  parts : items = before ++ item :: after
  inside : (layoutEach WireItem.layout 0 before).length ≤ capacity
  outside : capacity < (layoutEach WireItem.layout 0 (before ++ [item])).length

namespace Shortfall

variable {items : List WireItem} {capacity : Nat}

def offset (shortfall : Shortfall items capacity) : Nat :=
  (layoutEach WireItem.layout 0 shortfall.before).length

def needed (shortfall : Shortfall items capacity) : Nat :=
  (shortfall.item.layout shortfall.offset).length

theorem offset_add_needed (shortfall : Shortfall items capacity) :
    shortfall.offset + shortfall.needed =
      (layoutEach WireItem.layout 0 (shortfall.before ++ [shortfall.item])).length := by
  rw [layoutEach_append, layoutEach_singleton, List.length_append, Nat.zero_add]
  rfl

theorem initial (shortfall : Shortfall items capacity) :
    shortfall.before ++ [shortfall.item] <+: items := by
  refine ⟨shortfall.after, ?_⟩
  rw [List.append_assoc, List.singleton_append]
  exact shortfall.parts.symm

theorem offset_add_needed_le (shortfall : Shortfall items capacity) :
    shortfall.offset + shortfall.needed ≤ (layoutEach WireItem.layout 0 items).length := by
  rw [offset_add_needed]
  exact length_layoutEach_le _ _ shortfall.initial

theorem length_le_offset (shortfall : Shortfall items capacity) {front : List WireItem}
    (initial : front <+: items) (fits : (layoutEach WireItem.layout 0 front).length ≤ capacity) :
    (layoutEach WireItem.layout 0 front).length ≤ shortfall.offset := by
  by_cases short : front.length ≤ shortfall.before.length
  · have within : shortfall.before <+: items := ⟨_, shortfall.parts.symm⟩
    exact length_layoutEach_le _ _ (List.prefix_of_prefix_length_le initial within short)
  · have covers : shortfall.before ++ [shortfall.item] <+: front := by
      apply List.prefix_of_prefix_length_le shortfall.initial initial
      rw [List.length_append, List.length_singleton]
      omega
    have longer := length_layoutEach_le WireItem.layout 0 covers
    have outside := shortfall.outside
    omega

/-- With room for the item as well, the next shortfall lies behind it. -/
theorem le_offset (shortfall : Shortfall items capacity) {larger : Nat}
    (next : Shortfall items larger) (room : shortfall.offset + shortfall.needed ≤ larger) :
    shortfall.offset + shortfall.needed ≤ next.offset := by
  rw [offset_add_needed] at room ⊢
  exact next.length_le_offset shortfall.initial room

end Shortfall

section Size

variable {type : WireType} {value : type.Value}

theorem encodedSize_of_encodable (encodable : type.Encodable (type.content value)) :
    encodedSize type value =
      if (type.encoding value).length < wordLimit then .ok (type.encoding value).length
      else .panic := by
  rw [WireType.encoding, List.length_append, type.layout_eq_layoutEach, encodedSize,
    Writer.measuring, type.encode_eq_items]
  by_cases short :
      0 + (layoutEach WireItem.layout 0 (type.items (type.content value))).length < wordLimit
  · rw [run_measuring_of_lt encodable short, Nat.zero_add]
  · obtain ⟨w, panicked⟩ := run_measuring_of_le encodable (by decide) (Nat.le_of_not_lt short)
    rw [panicked, if_neg (by omega)]
    rfl

theorem encodable_of_encodedSize {size : Nat} (measured : encodedSize type value = .ok size) :
    type.Encodable (type.content value) := by
  rw [encodedSize, type.encode_eq_items] at measured
  cases ran : encodeEach WireItem.write (type.items (type.content value)) .measuring with
  | ok value w => exact encodable_of_run ran
  | error halt w =>
    rw [ran] at measured
    cases halt <;> cases measured

theorem encodedSize_eq_ok {size : Nat} : encodedSize type value = .ok size ↔
    type.Encodable (type.content value) ∧ size = (type.encoding value).length ∧
      size < wordLimit := by
  constructor
  · intro measured
    have encodable := encodable_of_encodedSize measured
    rw [encodedSize_of_encodable encodable] at measured
    split at measured
    · cases measured
      exact ⟨encodable, rfl, by assumption⟩
    · cases measured
  · rintro ⟨encodable, rfl, short⟩
    rw [encodedSize_of_encodable encodable, if_pos short]

theorem encodedSize_of_not_encodable (excess : ¬ type.Encodable (type.content value))
    (short : (type.encoding value).length < wordLimit) :
    ∃ fault, encodedSize type value = .error (.invalidData fault) := by
  simp only [WireType.Encodable, not_forall, exists_prop] at excess
  rw [WireType.encoding, List.length_append, type.layout_eq_layoutEach] at short
  obtain ⟨fault, w, failed⟩ := run_measuring_of_not_encodable excess
    (show 0 + (layoutEach WireItem.layout 0 (type.items (type.content value))).length < wordLimit by
      omega)
  rw [← type.encode_eq_items] at failed
  exact ⟨fault, by rw [encodedSize, Writer.measuring, failed]; rfl⟩

end Size

section Buffer

variable {type : WireType} {value : type.Value} {buffer : List UInt8}

theorem serialize_of_length_lt_header (short : buffer.length < 4) :
    serialize type value buffer = (.error (.encodeOverflow 0 4 buffer.length), buffer) := by
  rw [serialize]
  exact if_pos short

theorem serialize_of_le (encodable : type.Encodable (type.content value))
    (room : (type.encoding value).length ≤ buffer.length) :
    serialize type value buffer = (.ok (type.encoding value).length,
      type.encoding value ++ buffer.drop (type.encoding value).length) := by
  rw [WireType.encoding, List.length_append, type.layout_eq_layoutEach] at room ⊢
  have enough : ¬ buffer.length < header.length := by omega
  have fits : 0 + (layoutEach WireItem.layout 0 (type.items (type.content value))).length ≤
      (buffer.drop header.length).length := by
    rw [List.length_drop]
    omega
  have written := run_of_le encodable fits
  rw [overwrite_zero, Nat.zero_add, List.drop_drop, ← type.encode_eq_items] at written
  rw [serialize, if_neg enough, Writer.ofBuffer, written]
  simp only [List.append_assoc]
  rfl

/-- A buffer that has room for the header, but not for all, is filled up to an item. -/
theorem serialize_of_lt (encodable : type.Encodable (type.content value))
    (hasHeader : 4 ≤ buffer.length) (exceeds : buffer.length < (type.encoding value).length) :
    ∃ shortfall : Shortfall (type.items (type.content value)) (buffer.length - 4),
      serialize type value buffer =
        (.error (.encodeOverflow shortfall.offset shortfall.needed (buffer.length - 4)),
          (type.encoding value).take (4 + shortfall.offset) ++
            buffer.drop (4 + shortfall.offset)) := by
  rw [WireType.encoding, List.length_append, type.layout_eq_layoutEach] at exceeds
  have enough : ¬ buffer.length < header.length := Nat.not_lt_of_le hasHeader
  have payload : (buffer.drop header.length).length = buffer.length - 4 := List.length_drop
  have further : (buffer.drop header.length).length <
      0 + (layoutEach WireItem.layout 0 (type.items (type.content value))).length := by
    have : header.length = 4 := rfl
    omega
  obtain ⟨before, item, after, parts, _, rfl, low, high, stopped⟩ :=
    run_of_lt encodable (Nat.zero_le _) further
  simp only [Nat.zero_add, payload, overwrite_zero, List.drop_drop, ← type.encode_eq_items]
    at low high stopped
  have outside : buffer.length - 4 < (layoutEach WireItem.layout 0 (before ++ [item])).length := by
    rwa [layoutEach_append, layoutEach_singleton, List.length_append, Nat.zero_add]
  have written : (type.encoding value).take (4 + (layoutEach WireItem.layout 0 before).length) =
      header ++ layoutEach WireItem.layout 0 before := by
    rw [WireType.encoding, type.layout_eq_layoutEach, parts, layoutEach_append,
      ← List.append_assoc, List.take_left']
    rw [List.length_append]
    rfl
  refine ⟨⟨before, item, after, parts, low, outside⟩, ?_⟩
  rw [Shortfall.needed, Shortfall.offset, serialize, if_neg enough, Writer.ofBuffer, stopped,
    written, List.append_assoc]
  rfl

theorem serialize_of_not_encodable (excess : ¬ type.Encodable (type.content value)) :
    ∃ e, (serialize type value buffer).1 = .error e := by
  by_cases short : buffer.length < header.length
  · exact ⟨_, congrArg Prod.fst (serialize_of_length_lt_header short)⟩
  · rw [serialize, if_neg short, type.encode_eq_items]
    cases ran : encodeEach WireItem.write (type.items (type.content value))
        (.ofBuffer (buffer.drop header.length)) with
    | ok value w => exact (excess (encodable_of_run ran)).elim
    | error halt w =>
      cases halt with
      | answered e => exact ⟨e, rfl⟩
      | panic => exact (run_buffer_ne_panic _ _ _ w ran).elim

/-- Only an encodable value is written, and only into a buffer that has room for all of it. -/
theorem encodable_of_serialize {n : Nat} (written : (serialize type value buffer).1 = .ok n) :
    type.Encodable (type.content value) ∧ (type.encoding value).length ≤ buffer.length := by
  by_cases encodable : type.Encodable (type.content value)
  · refine ⟨encodable, Nat.le_of_not_lt fun exceeds => ?_⟩
    by_cases hasHeader : 4 ≤ buffer.length
    · obtain ⟨_, stopped⟩ := serialize_of_lt encodable hasHeader exceeds
      rw [stopped] at written
      cases written
    · rw [serialize_of_length_lt_header (Nat.lt_of_not_le hasHeader)] at written
      cases written
  · have failed : ∃ e, (serialize type value buffer).1 = .error e :=
      serialize_of_not_encodable encodable
    rcases failed with ⟨e, failed⟩
    rw [failed] at written
    cases written

end Buffer

/-- The layout is written exactly, `encodedSize` is the least sufficient length of a buffer, and
a content over a 32-bit limit is refused whatever the buffer. -/
theorem serialize_writes_encoding (type : WireType) (value : type.Value)
    (small : (type.encoding value).length < wordLimit) :
    (type.Encodable (type.content value) →
      encodedSize type value = .ok (type.encoding value).length ∧
      ∀ buffer : List UInt8,
        ((∃ n, (serialize type value buffer).1 = .ok n) ↔
          (type.encoding value).length ≤ buffer.length) ∧
        ((type.encoding value).length ≤ buffer.length →
          serialize type value buffer = (.ok (type.encoding value).length,
            type.encoding value ++ buffer.drop (type.encoding value).length))) ∧
    (¬ type.Encodable (type.content value) →
      (∃ fault, encodedSize type value = .error (.invalidData fault)) ∧
      ∀ buffer : List UInt8, ∃ e, (serialize type value buffer).1 = .error e) := by
  constructor
  · intro encodable
    refine ⟨?_, fun buffer => ⟨⟨?_, ?_⟩, serialize_of_le encodable⟩⟩
    · exact encodedSize_eq_ok.mpr ⟨encodable, rfl, small⟩
    · intro succeeds
      rcases succeeds with ⟨n, written⟩
      exact (encodable_of_serialize written).2
    · intro room
      exact ⟨_, congrArg Prod.fst (serialize_of_le encodable room)⟩
  · intro excess
    exact ⟨encodedSize_of_not_encodable excess small, fun buffer =>
      serialize_of_not_encodable excess⟩

def sampleType : WireType :=
  .record "Sample" .message
    (.cons "flag" (.scalar .bool)
      (.cons "name" .string
        (.cons "rows" (.sequence (.sequence (.scalar .uint16))) .nil)))

def sample : sampleType.Value :=
  (true, "ok", .shared [.shared [(7 : UInt16), (8 : UInt16)], .shared []], ())

theorem encodable_sample : sampleType.Encodable (sampleType.content sample) := by
  decide +kernel

theorem encoding_sample : sampleType.encoding sample =
    header ++ [1, 0, 0, 0, 3, 0, 0, 0, 111, 107, 0, 0, 2, 0, 0, 0, 2, 0, 0, 0, 7, 0, 8, 0,
      0, 0, 0, 0] := by
  decide +kernel

theorem serialize_writes_sample :
    (sampleType.encoding sample).length < wordLimit ∧
    encodedSize sampleType sample = .ok 32 ∧
    serialize sampleType sample (List.replicate 40 255) =
      (.ok 32, header ++ [1, 0, 0, 0, 3, 0, 0, 0, 111, 107, 0, 0, 2, 0, 0, 0, 2, 0, 0, 0,
        7, 0, 8, 0, 0, 0, 0, 0] ++ List.replicate 8 255) := by
  have length : (sampleType.encoding sample).length = 32 := congrArg List.length encoding_sample
  have small : (sampleType.encoding sample).length < wordLimit := by
    rw [length]
    decide
  have room : (sampleType.encoding sample).length ≤ (List.replicate 40 (255 : UInt8)).length := by
    rw [length]
    decide
  obtain ⟨size, written⟩ := (serialize_writes_encoding sampleType sample small).1 encodable_sample
  have written := (written _).2 room
  rw [length] at size
  rw [length, encoding_sample] at written
  exact ⟨small, size, written⟩

/-- A short buffer is filled up to the item that does not fit, and the error says where that item
would have begun and ended; a retry with room up to there gets past it. -/
theorem serialize_stops_at_item (type : WireType) (value : type.Value) (size : Nat)
    (measured : encodedSize type value = .ok size) (buffer : List UInt8)
    (exceeds : buffer.length < (type.encoding value).length) :
    size = (type.encoding value).length ∧
    (buffer.length < 4 →
      serialize type value buffer = (.error (.encodeOverflow 0 4 buffer.length), buffer)) ∧
    (4 ≤ buffer.length →
      ∃ shortfall : Shortfall (type.items (type.content value)) (buffer.length - 4),
        shortfall.offset ≤ buffer.length - 4 ∧
        buffer.length - 4 < shortfall.offset + shortfall.needed ∧
        shortfall.offset + shortfall.needed ≤ (type.encoding value).length - 4 ∧
        serialize type value buffer =
          (.error (.encodeOverflow shortfall.offset shortfall.needed (buffer.length - 4)),
            (type.encoding value).take (4 + shortfall.offset) ++
              buffer.drop (4 + shortfall.offset)) ∧
        ∀ retry : List UInt8, retry.length = 4 + (shortfall.offset + shortfall.needed) →
          (∃ n, (serialize type value retry).1 = .ok n) ∨
          ∃ offset needed, shortfall.offset + shortfall.needed ≤ offset ∧
            (serialize type value retry).1 =
              .error (.encodeOverflow offset needed (shortfall.offset + shortfall.needed))) := by
  obtain ⟨encodable, exact_size, -⟩ := encodedSize_eq_ok.mp measured
  refine ⟨exact_size, serialize_of_length_lt_header, fun hasHeader => ?_⟩
  obtain ⟨shortfall, stopped⟩ := serialize_of_lt encodable hasHeader exceeds
  have total : (type.encoding value).length - 4 =
      (layoutEach WireItem.layout 0 (type.items (type.content value))).length := by
    rw [WireType.encoding, List.length_append, ← type.layout_eq_layoutEach]
    exact Nat.add_sub_cancel_left 4 _
  refine ⟨shortfall, shortfall.inside, ?_, ?_, stopped, ?_⟩
  · rw [shortfall.offset_add_needed]
    exact shortfall.outside
  · rw [total]
    exact shortfall.offset_add_needed_le
  · intro retry length
    by_cases room : (type.encoding value).length ≤ retry.length
    · exact .inl ⟨_, congrArg Prod.fst (serialize_of_le encodable room)⟩
    · obtain ⟨next, stopped⟩ := serialize_of_lt encodable (by omega) (Nat.lt_of_not_le room)
      have capacity : retry.length - 4 = shortfall.offset + shortfall.needed := by omega
      refine .inr ⟨next.offset, next.needed, shortfall.le_offset next capacity.ge, ?_⟩
      rw [← capacity]
      exact congrArg Prod.fst stopped

/-- In 14 bytes of payload the flag and the text fit, the number of rows does not. -/
theorem serialize_stops_in_sample :
    encodedSize sampleType sample = .ok 32 ∧ 18 < (sampleType.encoding sample).length ∧
    ∃ offset needed, offset ≤ 14 ∧ 14 < offset + needed ∧ offset + needed ≤ 28 ∧
      serialize sampleType sample (List.replicate 18 255) =
        (.error (.encodeOverflow offset needed 14),
          (sampleType.encoding sample).take (4 + offset) ++
            (List.replicate 18 255).drop (4 + offset)) := by
  have length : (sampleType.encoding sample).length = 32 := congrArg List.length encoding_sample
  have measured : encodedSize sampleType sample = .ok 32 :=
    encodedSize_eq_ok.mpr ⟨encodable_sample, length.symm, by decide⟩
  have exceeds : (List.replicate 18 (255 : UInt8)).length <
      (sampleType.encoding sample).length := by
    rw [length]
    decide
  obtain ⟨_, _, stops⟩ := serialize_stops_at_item sampleType sample 32 measured _ exceeds
  obtain ⟨shortfall, inside, outside, within, stopped, _⟩ := stops (by decide)
  rw [length] at within
  exact ⟨measured, exceeds, shortfall.offset, shortfall.needed, inside, outside, within, stopped⟩

end WireSchema.Envelope
