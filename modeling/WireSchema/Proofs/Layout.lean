import WireSchema.Envelope
import WireSchema.Proofs.Alignment
import WireSchema.Proofs.Content

/-! The layout of a content, said without a writer. -/

namespace WireSchema

/-- `bytes` behind as many zeros as `offset` is short of a multiple of `width`. -/
def aligned (width offset : Nat) (bytes : List UInt8) : List UInt8 :=
  zeros (gap offset width) ++ bytes

def layoutEach {α : Type} (layout : Nat → α → List UInt8) : Nat → List α → List UInt8
  | _, [] => []
  | offset, item :: rest =>
    layout offset item ++ layoutEach layout (offset + (layout offset item).length) rest

def layoutSequence {α : Type} (layout : Nat → α → List UInt8) (offset : Nat) (items : List α) :
    List UInt8 :=
  let count := aligned 4 offset (littleEndian 4 items.length)
  count ++ layoutEach layout (offset + count.length) items

def stringBytes (text : String) : List UInt8 :=
  littleEndian 4 (text.toUTF8.toList.length + 1) ++ text.toUTF8.toList ++ [0]

mutual

def WireType.layout : (type : WireType) → Nat → type.Content → List UInt8
  | .scalar kind, offset, value => aligned kind.width offset (kind.bytes value)
  | .string, offset, text => aligned 4 offset (stringBytes text)
  | .array element _, offset, items => layoutEach element.layout offset (Vector.toList items)
  | .sequence element, offset, items => layoutSequence element.layout offset items
  | .record _ _ fields, offset, contents => fields.layout offset contents
  | .alias _ target, offset, content => target.layout offset content

def Fields.layout : (fields : Fields) → Nat → fields.Content → List UInt8
  | .nil, _, () => []
  | .cons _ type rest, offset, (content, contents) =>
    type.layout offset content ++
      rest.layout (offset + (type.layout offset content).length) contents

end

/-- The full encoding: the header, then the layout from offset zero. -/
def WireType.encoding (type : WireType) (value : type.Value) : List UInt8 :=
  Envelope.header ++ type.layout 0 (type.content value)

inductive WireItem where
  | scalar (kind : Scalar) (value : kind.Carrier)
  | count (n : Nat)
  | text (string : String)

namespace WireItem

def width : WireItem → Nat
  | .scalar kind _ => kind.width
  | .count _ => 4
  | .text _ => 4

def bytes : WireItem → List UInt8
  | .scalar kind value => kind.bytes value
  | .count n => littleEndian 4 n
  | .text string => stringBytes string

def layout (offset : Nat) (item : WireItem) : List UInt8 := aligned item.width offset item.bytes

/-- Counts, and lengths with their NUL, have to fit in 32 bits. -/
def Encodable : WireItem → Prop
  | .scalar _ _ => True
  | .count n => n < halfWordLimit
  | .text string => string.toUTF8.toList.length + 1 < halfWordLimit

instance : (item : WireItem) → Decidable item.Encodable
  | .scalar _ _ => isTrue trivial
  | .count n => Nat.decLt n halfWordLimit
  | .text string => Nat.decLt (string.toUTF8.toList.length + 1) halfWordLimit

end WireItem

def sequenceItems {α : Type} (items : α → List WireItem) (contents : List α) : List WireItem :=
  .count contents.length :: contents.flatMap items

mutual

def WireType.items : (type : WireType) → type.Content → List WireItem
  | .scalar kind, value => [.scalar kind value]
  | .string, text => [.text text]
  | .array element _, contents => (Vector.toList contents).flatMap element.items
  | .sequence element, contents => sequenceItems element.items contents
  | .record _ _ fields, contents => fields.items contents
  | .alias _ target, content => target.items content

def Fields.items : (fields : Fields) → fields.Content → List WireItem
  | .nil, () => []
  | .cons _ type rest, (content, contents) => type.items content ++ rest.items contents

end

/-- Every string is at most 2^32 - 2 bytes long and every sequence has at most 2^32 - 1 elements. -/
def WireType.Encodable (type : WireType) (content : type.Content) : Prop :=
  ∀ item ∈ type.items content, item.Encodable

instance (type : WireType) (content : type.Content) : Decidable (type.Encodable content) :=
  List.decidableBAll _ _

@[simp] theorem length_zeros (n : Nat) : (zeros n).length = n := List.length_replicate

@[simp] theorem length_aligned (width offset : Nat) (bytes : List UInt8) :
    (aligned width offset bytes).length = gap offset width + bytes.length := by
  simp [aligned]

@[simp] theorem length_stringBytes (text : String) :
    (stringBytes text).length = 4 + text.toUTF8.toList.length + 1 := by
  simp only [stringBytes, List.length_append, length_littleEndian, List.length_singleton]

theorem layoutEach_append {α : Type} (layout : Nat → α → List UInt8) (offset : Nat)
    (front back : List α) :
    layoutEach layout offset (front ++ back) = layoutEach layout offset front ++
      layoutEach layout (offset + (layoutEach layout offset front).length) back := by
  induction front generalizing offset with
  | nil => simp [layoutEach]
  | cons item rest ih =>
    simp only [List.cons_append, layoutEach, ih, List.append_assoc, List.length_append,
      Nat.add_assoc]

theorem layoutEach_singleton {α : Type} (layout : Nat → α → List UInt8) (offset : Nat) (item : α) :
    layoutEach layout offset [item] = layout offset item := by
  simp [layoutEach]

/-- The layout of composite items is the layout of all their parts. -/
theorem layoutEach_flatMap {α β : Type} (layout : Nat → α → List UInt8)
    (part : Nat → β → List UInt8) (parts : α → List β)
    (whole : ∀ offset item, layout offset item = layoutEach part offset (parts item))
    (offset : Nat) (items : List α) :
    layoutEach layout offset items = layoutEach part offset (items.flatMap parts) := by
  induction items generalizing offset with
  | nil => rfl
  | cons item rest ih =>
    rw [List.flatMap_cons, layoutEach_append, ← whole, ← ih]
    rfl

theorem layoutSequence_eq_layoutEach {α : Type} (layout : Nat → α → List UInt8)
    (items : α → List WireItem)
    (whole : ∀ offset content,
      layout offset content = layoutEach WireItem.layout offset (items content))
    (offset : Nat) (contents : List α) :
    layoutSequence layout offset contents =
      layoutEach WireItem.layout offset (sequenceItems items contents) := by
  rw [layoutSequence, sequenceItems, layoutEach, ← layoutEach_flatMap _ _ _ whole]
  rfl

mutual

theorem WireType.layout_eq_layoutEach : (type : WireType) → (offset : Nat) →
    (content : type.Content) →
    type.layout offset content = layoutEach WireItem.layout offset (type.items content)
  | .scalar kind, offset, value => by
    rw [WireType.items, layoutEach_singleton]
    rfl
  | .string, offset, text => by
    rw [WireType.items, layoutEach_singleton]
    rfl
  | .array element _, offset, contents =>
    layoutEach_flatMap _ _ _ element.layout_eq_layoutEach offset (Vector.toList contents)
  | .sequence element, offset, contents =>
    layoutSequence_eq_layoutEach _ _ element.layout_eq_layoutEach offset contents
  | .record _ _ fields, offset, contents => fields.layout_eq_layoutEach offset contents
  | .alias _ target, offset, content => target.layout_eq_layoutEach offset content

theorem Fields.layout_eq_layoutEach : (fields : Fields) → (offset : Nat) →
    (contents : fields.Content) →
    fields.layout offset contents = layoutEach WireItem.layout offset (fields.items contents)
  | .nil, _, () => rfl
  | .cons _ type rest, offset, (content, contents) => by
    rw [Fields.layout, Fields.items, layoutEach_append, type.layout_eq_layoutEach,
      rest.layout_eq_layoutEach]

end

end WireSchema
