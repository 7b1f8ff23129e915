import WireSchema.Descriptor
import WireSchema.Proofs.Serialize

/-! Sizes read off descriptions, against the places where the writer stands. -/

namespace WireSchema

def Fields.types : Fields → List WireType
  | .nil => []
  | .cons _ type rest => type :: rest.types

namespace WireType

inductive Contains : WireType → WireType → Prop where
  | self (type : WireType) : Contains type type
  | array {element part : WireType} (length : Nat) (inside : Contains element part) :
    Contains (.array element length) part
  | sequence {element part : WireType} (inside : Contains element part) :
    Contains (.sequence element) part
  | record {type part : WireType} {fields : Fields} (name : String) (role : Role)
    (member : type ∈ fields.types) (inside : Contains type part) :
    Contains (.record name role fields) part
  | renamed {target part : WireType} (name : String) (inside : Contains target part) :
    Contains (.alias name target) part

def ContainsVariable (type : WireType) : Prop :=
  type.Contains .string ∨ ∃ element, type.Contains (.sequence element)

end WireType

section Variable

theorem containsVariable_scalar (kind : Scalar) : ¬ (WireType.scalar kind).ContainsVariable := by
  intro contains
  rcases contains with inside | ⟨element, inside⟩ <;> cases inside

theorem containsVariable_string : WireType.string.ContainsVariable :=
  .inl (.self .string)

theorem containsVariable_sequence (element : WireType) :
    (WireType.sequence element).ContainsVariable :=
  .inr ⟨element, .self _⟩

theorem containsVariable_array {element : WireType} (length : Nat) :
    (WireType.array element length).ContainsVariable ↔ element.ContainsVariable := by
  constructor
  · intro contains
    rcases contains with inside | ⟨inner, inside⟩
    · cases inside with
      | array _ inside => exact .inl inside
    · cases inside with
      | array _ inside => exact .inr ⟨inner, inside⟩
  · intro contains
    rcases contains with inside | ⟨inner, inside⟩
    · exact .inl (.array length inside)
    · exact .inr ⟨inner, .array length inside⟩

theorem containsVariable_alias {target : WireType} (name : String) :
    (WireType.alias name target).ContainsVariable ↔ target.ContainsVariable := by
  constructor
  · intro contains
    rcases contains with inside | ⟨inner, inside⟩
    · cases inside with
      | renamed _ inside => exact .inl inside
    · cases inside with
      | renamed _ inside => exact .inr ⟨inner, inside⟩
  · intro contains
    rcases contains with inside | ⟨inner, inside⟩
    · exact .inl (.renamed name inside)
    · exact .inr ⟨inner, .renamed name inside⟩

theorem containsVariable_record {fields : Fields} (name : String) (role : Role) :
    (WireType.record name role fields).ContainsVariable ↔
      ∃ type ∈ fields.types, type.ContainsVariable := by
  constructor
  · intro contains
    rcases contains with inside | ⟨inner, inside⟩
    · cases inside with
      | record _ _ member inside => exact ⟨_, member, .inl inside⟩
    · cases inside with
      | record _ _ member inside => exact ⟨_, member, .inr ⟨inner, inside⟩⟩
  · intro contains
    rcases contains with ⟨type, member, inside | ⟨inner, inside⟩⟩
    · exact .inl (.record name role member inside)
    · exact .inr ⟨inner, .record name role member inside⟩

theorem exists_mem_types_cons {p : WireType → Prop} (name : String) (type : WireType)
    (rest : Fields) : (∃ t ∈ (Fields.cons name type rest).types, p t) ↔
      p type ∨ ∃ t ∈ rest.types, p t := by
  simp [Fields.types]

@[simp] theorem isVariable_rename (descriptor : Descriptor) (name : String) :
    (descriptor.rename name).isVariable = descriptor.isVariable := by
  cases descriptor <;> rfl

/-- That the element of a field is described apart from its cardinality makes no difference. -/
theorem isVariable_descriptors_cons (name : String) (type : WireType) (rest : Fields) :
    (Fields.cons name type rest).descriptors.isVariable =
      (type.descriptor.isVariable || rest.descriptors.isVariable) := by
  cases type <;>
    simp [Fields.descriptors, WireType.descriptor, FieldDescriptors.isVariable,
      Descriptor.isVariable]

mutual

theorem WireType.isVariable_descriptor_iff : (type : WireType) →
    (type.descriptor.isVariable = true ↔ type.ContainsVariable)
  | .scalar kind => by
    have not := containsVariable_scalar kind
    simp [WireType.descriptor, Descriptor.ofScalar, Descriptor.isVariable, not]
  | .string => by
    simp [WireType.descriptor, Descriptor.ofString, Descriptor.isVariable, containsVariable_string]
  | .array element length => by
    rw [containsVariable_array, ← element.isVariable_descriptor_iff]
    rfl
  | .sequence element => by
    simp [WireType.descriptor, Descriptor.isVariable, containsVariable_sequence]
  | .record name role fields => by
    rw [containsVariable_record, ← fields.isVariable_descriptors_iff]
    rfl
  | .alias name target => by
    rw [containsVariable_alias, ← target.isVariable_descriptor_iff, WireType.descriptor,
      isVariable_rename]

theorem Fields.isVariable_descriptors_iff : (fields : Fields) →
    (fields.descriptors.isVariable = true ↔ ∃ type ∈ fields.types, type.ContainsVariable)
  | .nil => by simp [Fields.descriptors, FieldDescriptors.isVariable, Fields.types]
  | .cons name type rest => by
    rw [isVariable_descriptors_cons, Bool.or_eq_true, type.isVariable_descriptor_iff,
      rest.isVariable_descriptors_iff, exists_mem_types_cons]

end

end Variable

section Layout

@[simp] theorem layoutEnd_rename (descriptor : Descriptor) (name : String) :
    (descriptor.rename name).layoutEnd = descriptor.layoutEnd := by
  cases descriptor <;> rfl

/-- A field is laid out as its type, if that is no sequence. -/
theorem layoutEnd_descriptors_cons (name : String) {type : WireType} (rest : Fields)
    (fixed : ¬ type.ContainsVariable) (offset : Nat) :
    (Fields.cons name type rest).descriptors.layoutEnd offset =
      rest.descriptors.layoutEnd (type.descriptor.layoutEnd offset) := by
  cases type with
  | sequence element => exact (fixed (containsVariable_sequence element)).elim
  | _ => rfl

theorem repeat_succ {α : Type} (f : α → α) (n : Nat) (a : α) :
    Nat.repeat f (n + 1) a = Nat.repeat f n (f a) := by
  induction n with
  | zero => rfl
  | succ n ih => rw [Nat.repeat, ih, Nat.repeat]

theorem repeat_layoutEnd {α : Type} {next : Nat → Nat} {layout : Nat → α → List UInt8}
    (exact : ∀ offset item, next offset = offset + (layout offset item).length)
    (items : List α) (offset : Nat) :
    Nat.repeat next items.length offset = offset + (layoutEach layout offset items).length := by
  induction items generalizing offset with
  | nil => rfl
  | cons item rest ih =>
    calc
      Nat.repeat next (item :: rest).length offset
          = Nat.repeat next rest.length (next offset) := repeat_succ next rest.length offset
      _ = next offset + (layoutEach layout (next offset) rest).length := ih (next offset)
      _ = offset + (layoutEach layout offset (item :: rest)).length := by
        rw [layoutEach, exact offset item, List.length_append, Nat.add_assoc]

theorem repeat_layoutEnd_vector {α : Type} {next : Nat → Nat} {layout : Nat → α → List UInt8}
    (exact : ∀ offset item, next offset = offset + (layout offset item).length) {n : Nat}
    (items : Vector α n) (offset : Nat) :
    Nat.repeat next n offset = offset + (layoutEach layout offset items.toList).length := by
  have whole := repeat_layoutEnd exact items.toList offset
  rwa [Vector.length_toList] at whole

theorem layoutEnd_scalar (kind : Scalar) (value : kind.Carrier) (offset : Nat) :
    (WireType.scalar kind).descriptor.layoutEnd offset =
      offset + (aligned kind.width offset (kind.bytes value)).length := by
  rw [length_aligned, Scalar.length_bytes, ← Nat.add_assoc,
    ← paddingAt_eq_gap offset kind.width_isPowerOfTwo]
  rfl

mutual

/-- The second element of an array may be padded otherwise than the first; both sides start anew
from where the element before it ends. -/
theorem WireType.layoutEnd_eq : (type : WireType) → ¬ type.ContainsVariable →
    (offset : Nat) → (content : type.Content) →
    type.descriptor.layoutEnd offset = offset + (type.layout offset content).length
  | .scalar kind, _, offset, value => layoutEnd_scalar kind value offset
  | .string, fixed, _, _ => (fixed containsVariable_string).elim
  | .array element length, fixed, offset, contents => by
    have fixed := (containsVariable_array length).not.mp fixed
    exact repeat_layoutEnd_vector (element.layoutEnd_eq fixed) contents offset
  | .sequence element, fixed, _, _ => (fixed (containsVariable_sequence element)).elim
  | .record name role fields, fixed, offset, contents =>
    fields.layoutEnd_eq ((containsVariable_record name role).not.mp fixed) offset contents
  | .alias name target, fixed, offset, content => by
    rw [WireType.descriptor, layoutEnd_rename]
    exact target.layoutEnd_eq ((containsVariable_alias name).not.mp fixed) offset content

theorem Fields.layoutEnd_eq : (fields : Fields) →
    (¬ ∃ type ∈ fields.types, type.ContainsVariable) → (offset : Nat) →
    (contents : fields.Content) →
    fields.descriptors.layoutEnd offset = offset + (fields.layout offset contents).length
  | .nil, _, _, () => rfl
  | .cons name type rest, fixed, offset, (content, contents) => by
    rw [exists_mem_types_cons, not_or] at fixed
    rw [layoutEnd_descriptors_cons name rest fixed.1, rest.layoutEnd_eq fixed.2 _ contents,
      type.layoutEnd_eq fixed.1 offset content, Fields.layout, List.length_append, Nat.add_assoc]

end

end Layout

section Encodable

mutual

theorem WireType.encodable_of_fixed : (type : WireType) → ¬ type.ContainsVariable →
    (content : type.Content) → type.Encodable content
  | .scalar kind, _, value => by
    intro item member
    rw [WireType.items, List.mem_singleton] at member
    subst member
    trivial
  | .string, fixed, _ => (fixed containsVariable_string).elim
  | .array element length, fixed, contents => by
    have fixed := (containsVariable_array length).not.mp fixed
    intro item member
    obtain ⟨content, _, inside⟩ := List.mem_flatMap.mp member
    exact element.encodable_of_fixed fixed content item inside
  | .sequence element, fixed, _ => (fixed (containsVariable_sequence element)).elim
  | .record name role fields, fixed, contents =>
    fields.encodable_of_fixed ((containsVariable_record name role).not.mp fixed) contents
  | .alias name target, fixed, content =>
    target.encodable_of_fixed ((containsVariable_alias name).not.mp fixed) content

theorem Fields.encodable_of_fixed : (fields : Fields) →
    (¬ ∃ type ∈ fields.types, type.ContainsVariable) → (contents : fields.Content) →
    ∀ item ∈ fields.items contents, item.Encodable
  | .nil, _, () => by
    intro item member
    cases member
  | .cons name type rest, fixed, (content, contents) => by
    rw [exists_mem_types_cons, not_or] at fixed
    intro item member
    rcases List.mem_append.mp member with here | later
    · exact type.encodable_of_fixed fixed.1 content item here
    · exact rest.encodable_of_fixed fixed.2 contents item later

end

end Encodable

namespace Envelope

variable {type : WireType}

theorem fixedSize?_eq_none_iff : type.descriptor.fixedSize? = none ↔ type.ContainsVariable := by
  rw [← type.isVariable_descriptor_iff, Descriptor.fixedSize?]
  split <;> simp_all

theorem fixed_of_fixedSize? {n : Nat} (fixed : type.descriptor.fixedSize? = some n) :
    ¬ type.ContainsVariable ∧ type.descriptor.layoutEnd 0 = n := by
  rw [← type.isVariable_descriptor_iff]
  rw [Descriptor.fixedSize?, Option.ite_none_left_eq_some] at fixed
  exact ⟨fixed.1, Option.some.inj fixed.2⟩

theorem encode_measuring_of_fixed (fixed : ¬ type.ContainsVariable) (value : type.Value)
    {offset : Nat} (small : type.descriptor.layoutEnd offset < wordLimit) :
    type.encode value ⟨.measure, offset⟩ =
      .ok () ⟨.measure, type.descriptor.layoutEnd offset⟩ := by
  have ends := type.layoutEnd_eq fixed offset (type.content value)
  rw [ends, type.layout_eq_layoutEach] at small
  have run := run_measuring_of_lt (type.encodable_of_fixed fixed (type.content value)) small
  rw [← type.layout_eq_layoutEach, ← type.encode_eq_items, ← ends] at run
  exact run

theorem encode_buffer_of_fixed (fixed : ¬ type.ContainsVariable) (value : type.Value)
    {offset : Nat} {bytes : List UInt8} (fits : type.descriptor.layoutEnd offset ≤ bytes.length) :
    type.encode value ⟨.buffer bytes, offset⟩ =
      .ok () ⟨.buffer (overwrite bytes offset (type.layout offset (type.content value))),
        type.descriptor.layoutEnd offset⟩ := by
  have ends := type.layoutEnd_eq fixed offset (type.content value)
  rw [ends, type.layout_eq_layoutEach] at fits
  have run := run_of_le (type.encodable_of_fixed fixed (type.content value)) fits
  rw [← type.layout_eq_layoutEach, ← type.encode_eq_items, ← ends] at run
  exact run

/-- Only strings and sequences make a size vary. Where it does not, the description has the size
of every value, and from any offset the place behind it, whether the writer measures or writes. -/
theorem fixedSize_predicts_encoding (type : WireType) :
    (type.descriptor.fixedSize? = none ↔ type.ContainsVariable) ∧
    ∀ n, type.descriptor.fixedSize? = some n → ∀ value : type.Value,
      (n < wordLimit - 4 → encodedSize type value = .ok (4 + n)) ∧
      ∀ offset,
        (type.descriptor.layoutEnd offset < wordLimit →
          type.encode value ⟨.measure, offset⟩ =
            .ok () ⟨.measure, type.descriptor.layoutEnd offset⟩) ∧
        ∀ bytes : List UInt8, type.descriptor.layoutEnd offset ≤ bytes.length →
          ∃ after, after.length = bytes.length ∧ type.encode value ⟨.buffer bytes, offset⟩ =
            .ok () ⟨.buffer after, type.descriptor.layoutEnd offset⟩ := by
  refine ⟨fixedSize?_eq_none_iff, fun n sized value => ?_⟩
  obtain ⟨fixed, ends⟩ := fixed_of_fixedSize? sized
  refine ⟨fun small => ?_, fun offset => ⟨fun short => ?_, fun bytes fits => ?_⟩⟩
  · have short : type.descriptor.layoutEnd 0 < wordLimit := by
      omega
    have measured := encode_measuring_of_fixed fixed value short
    rw [ends] at measured
    rw [encodedSize, Writer.measuring, measured]
    exact if_pos (show 4 + n < wordLimit by omega)
  · exact encode_measuring_of_fixed fixed value short
  · have place := type.layoutEnd_eq fixed offset (type.content value)
    exact ⟨_, length_overwrite bytes _ (by omega), encode_buffer_of_fixed fixed value fits⟩

/-- The second pair begins behind three bytes of padding, the first behind one byte less. -/
def fixedSample : WireType :=
  .record "Pairs" .message
    (.cons "lead" (.scalar .uint16)
      (.cons "pairs" (.array (.record "Pair" .message
        (.cons "number" (.scalar .uint32) (.cons "flag" (.scalar .bool) .nil))) 2)
        (.cons "scale" (.scalar .float64) .nil)))

theorem fixedSize_predicts_fixedSample :
    fixedSample.descriptor.fixedSize? = some 32 ∧ 32 < wordLimit - 4 ∧
    fixedSample.descriptor.layoutEnd 7 = 40 ∧ ¬ fixedSample.ContainsVariable ∧
    ∀ value : fixedSample.Value, encodedSize fixedSample value = .ok 36 ∧
      fixedSample.encode value ⟨.measure, 7⟩ = .ok () ⟨.measure, 40⟩ ∧
      ∃ after, after.length = 41 ∧ fixedSample.encode value ⟨.buffer (.replicate 41 255), 7⟩ =
        .ok () ⟨.buffer after, 40⟩ := by
  have sized : fixedSample.descriptor.fixedSize? = some 32 := by
    decide +kernel
  have small : 32 < wordLimit - 4 := by
    decide
  have ends : fixedSample.descriptor.layoutEnd 7 = 40 := by
    decide +kernel
  obtain ⟨varies, predicts⟩ := fixedSize_predicts_encoding fixedSample
  refine ⟨sized, small, ends, ?_, fun value => ?_⟩
  · intro contains
    rw [varies.mpr contains] at sized
    cases sized
  · obtain ⟨size, places⟩ := predicts 32 sized value
    obtain ⟨measured, written⟩ := places 7
    rw [ends] at measured written
    have room : 40 ≤ (List.replicate 41 (255 : UInt8)).length := by
      decide
    exact ⟨size small, measured (by decide), written _ room⟩

end Envelope

end WireSchema
