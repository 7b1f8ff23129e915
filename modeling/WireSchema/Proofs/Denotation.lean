import Mathlib.Tactic
import WireSchema.Proofs.Layout
import WireSchema.Proofs.Word
import WireSchema.Reader

/-! The wire grammar: when a block of bytes at an offset denotes a content. -/

namespace WireSchema

theorem toList_loop (bytes : ByteArray) (index : Nat) (read : List UInt8) :
    ByteArray.toList.loop bytes index read = read.reverse ++ bytes.data.toList.drop index := by
  fun_induction ByteArray.toList.loop bytes index read with
  | case1 index read inside ih =>
    have here : index < bytes.data.toList.length := by simpa using inside
    rw [ih, List.drop_eq_getElem_cons here, List.reverse_cons, List.append_assoc]
    simp [ByteArray.get!, getElem!_pos, inside]
  | case2 index read outside =>
    have : bytes.data.toList.length ≤ index := by simpa using outside
    rw [List.drop_of_length_le this, List.append_nil]

theorem toList_eq_data (bytes : ByteArray) : bytes.toList = bytes.data.toList := by
  rw [ByteArray.toList, toList_loop]
  rfl

theorem utf8?_eq_some {bytes : List UInt8} {text : String} :
    utf8? bytes = some text ↔ text.toUTF8.toList = bytes := by
  rw [toList_eq_data, utf8?, String.fromUTF8?]
  constructor
  · intro found
    split at found
    · obtain rfl := Option.some.inj found
      rfl
    · cases found
  · intro encoded
    subst encoded
    exact dif_pos text.isValidUTF8

theorem toUTF8_toList_inj {a b : String} (same : a.toUTF8.toList = b.toUTF8.toList) : a = b := by
  have found := utf8?_eq_some.mpr same
  rw [utf8?_eq_some.mpr rfl] at found
  exact (Option.some.inj found).symm

/-- A word of `width` bytes behind the least padding, of whatever bytes. -/
def Padded (width offset : Nat) (block word : List UInt8) : Prop :=
  ∃ pad, block = pad ++ word ∧ pad.length = gap offset width ∧ word.length = width

def DenotesScalar (kind : Scalar) (offset : Nat) (block : List UInt8) (value : kind.Carrier) :
    Prop :=
  ∃ word, Padded kind.width offset block word ∧ kind.Denotes word value

def DenotesNumber (offset : Nat) (block : List UInt8) (n : Nat) : Prop :=
  ∃ word, Padded 4 offset block word ∧ ofLittleEndian word = n

/-- The length is zero, or it counts the bytes of the text and the NUL behind them. -/
def DenotesString (offset : Nat) (block : List UInt8) (text : String) : Prop :=
  ∃ length body, block = length ++ body ∧
    ((DenotesNumber offset length 0 ∧ body = [] ∧ text = "") ∨
      (DenotesNumber offset length (text.toUTF8.toList.length + 1) ∧
        body = text.toUTF8.toList ++ [0]))

def DenotesEach {α : Type} (denotes : Nat → List UInt8 → α → Prop) :
    Nat → List UInt8 → List α → Prop
  | _, block, [] => block = []
  | offset, block, item :: rest =>
    ∃ head tail, block = head ++ tail ∧ denotes offset head item ∧
      DenotesEach denotes (offset + head.length) tail rest

def DenotesSequence {α : Type} (denotes : Nat → List UInt8 → α → Prop) (offset : Nat)
    (block : List UInt8) (items : List α) : Prop :=
  ∃ count body, block = count ++ body ∧ DenotesNumber offset count items.length ∧
    DenotesEach denotes (offset + count.length) body items

mutual

def WireType.Denotes : (type : WireType) → Nat → List UInt8 → type.Content → Prop
  | .scalar kind, offset, block, value => DenotesScalar kind offset block value
  | .string, offset, block, text => DenotesString offset block text
  | .array element _, offset, block, items =>
    DenotesEach element.Denotes offset block (Vector.toList items)
  | .sequence element, offset, block, items => DenotesSequence element.Denotes offset block items
  | .record _ _ fields, offset, block, contents => fields.Denotes offset block contents
  | .alias _ target, offset, block, content => target.Denotes offset block content

def Fields.Denotes : (fields : Fields) → Nat → List UInt8 → fields.Content → Prop
  | .nil, _, block, () => block = []
  | .cons _ type rest, offset, block, (content, contents) =>
    ∃ head tail, block = head ++ tail ∧ type.Denotes offset head content ∧
      rest.Denotes (offset + head.length) tail contents

end

section Unambiguous

variable {α : Type} {offset : Nat} {block block' rest rest' : List UInt8}

/-- Bytes that begin with a block begin with no other block at the same offset. -/
structure Unambiguous (denotes : Nat → List UInt8 → α → Prop) : Prop where
  unique : ∀ {offset : Nat} {block block' rest rest' : List UInt8} {a b : α},
    denotes offset block a → denotes offset block' b → block ++ rest = block' ++ rest' →
      block = block' ∧ a = b

theorem padded_unique {width : Nat} {word word' : List UInt8}
    (left : Padded width offset block word) (right : Padded width offset block' word')
    (same : block ++ rest = block' ++ rest') : block = block' ∧ word = word' := by
  rcases left with ⟨pad, rfl, gapLeft, widthLeft⟩
  rcases right with ⟨pad', rfl, gapRight, widthRight⟩
  rw [List.append_assoc, List.append_assoc] at same
  obtain ⟨samePad, same⟩ := List.append_inj same (gapLeft.trans gapRight.symm)
  obtain ⟨sameWord, _⟩ := List.append_inj same (widthLeft.trans widthRight.symm)
  exact ⟨by rw [samePad, sameWord], sameWord⟩

theorem denotesScalar_unambiguous (kind : Scalar) : Unambiguous (DenotesScalar kind) := by
  constructor
  intro offset block block' rest rest' a b left right same
  rcases left with ⟨word, left, meansLeft⟩
  rcases right with ⟨word', right, meansRight⟩
  obtain ⟨sameBlock, rfl⟩ := padded_unique left right same
  rcases left with ⟨_, _, _, width⟩
  rw [Scalar.denotes_iff width] at meansLeft meansRight
  exact ⟨sameBlock, meansLeft.symm.trans meansRight⟩

theorem denotesNumber_unambiguous : Unambiguous DenotesNumber := by
  constructor
  intro offset block block' rest rest' a b left right same
  rcases left with ⟨word, left, rfl⟩
  rcases right with ⟨word', right, rfl⟩
  obtain ⟨sameBlock, rfl⟩ := padded_unique left right same
  exact ⟨sameBlock, rfl⟩

theorem denotesString_unambiguous : Unambiguous DenotesString := by
  constructor
  intro offset block block' rest rest' a b left right same
  rcases left with ⟨length, body, rfl, left⟩
  rcases right with ⟨length', body', rfl, right⟩
  rw [List.append_assoc, List.append_assoc] at same
  -- Zero is no length with a NUL in it, which leaves the two cases where both lengths agree.
  rcases left with ⟨left, rfl, rfl⟩ | ⟨left, rfl⟩ <;>
    rcases right with ⟨right, rfl, rfl⟩ | ⟨right, rfl⟩ <;>
    obtain ⟨rfl, count⟩ := denotesNumber_unambiguous.unique left right same
  · exact ⟨rfl, rfl⟩
  · omega
  · omega
  · have same := List.append_cancel_left same
    rw [List.append_assoc, List.append_assoc] at same
    obtain ⟨sameBytes, _⟩ := List.append_inj same (Nat.succ.inj count)
    obtain rfl := toUTF8_toList_inj sameBytes
    exact ⟨rfl, rfl⟩

theorem denotesEach_unambiguous {denotes : Nat → List UInt8 → α → Prop}
    (item : Unambiguous denotes) {as bs : List α} (length : as.length = bs.length)
    (left : DenotesEach denotes offset block as) (right : DenotesEach denotes offset block' bs)
    (same : block ++ rest = block' ++ rest') : block = block' ∧ as = bs := by
  induction as generalizing offset block block' bs with
  | nil =>
    obtain rfl := List.eq_nil_of_length_eq_zero length.symm
    exact ⟨left.trans right.symm, rfl⟩
  | cons a as ih =>
    cases bs with
    | nil => cases length
    | cons b bs =>
      rcases left with ⟨head, tail, rfl, denotesLeft, left⟩
      rcases right with ⟨head', tail', rfl, denotesRight, right⟩
      rw [List.append_assoc, List.append_assoc] at same
      obtain ⟨rfl, rfl⟩ := item.unique denotesLeft denotesRight same
      obtain ⟨rfl, rfl⟩ := ih (Nat.succ.inj length) left right (List.append_cancel_left same)
      exact ⟨rfl, rfl⟩

theorem denotesSequence_unambiguous {denotes : Nat → List UInt8 → α → Prop}
    (item : Unambiguous denotes) : Unambiguous (DenotesSequence denotes) := by
  constructor
  intro offset block block' rest rest' as bs left right same
  rcases left with ⟨count, body, rfl, numberLeft, left⟩
  rcases right with ⟨count', body', rfl, numberRight, right⟩
  rw [List.append_assoc, List.append_assoc] at same
  obtain ⟨rfl, length⟩ := denotesNumber_unambiguous.unique numberLeft numberRight same
  obtain ⟨rfl, rfl⟩ :=
    denotesEach_unambiguous item length left right (List.append_cancel_left same)
  exact ⟨rfl, rfl⟩

mutual

theorem WireType.denotes_unambiguous : (type : WireType) → Unambiguous type.Denotes
  | .scalar kind => denotesScalar_unambiguous kind
  | .string => denotesString_unambiguous
  | .array element _ => by
    constructor
    intro offset block block' rest rest' as bs left right same
    -- Nothing on the wire ends an array: only their common length keeps one from being longer.
    obtain ⟨sameBlock, sameItems⟩ := denotesEach_unambiguous element.denotes_unambiguous
      (Vector.length_toList.trans Vector.length_toList.symm) left right same
    exact ⟨sameBlock, Vector.toList_inj.mp sameItems⟩
  | .sequence element => denotesSequence_unambiguous element.denotes_unambiguous
  | .record _ _ fields => fields.denotes_unambiguous
  | .alias _ target => target.denotes_unambiguous

theorem Fields.denotes_unambiguous : (fields : Fields) → Unambiguous fields.Denotes
  | .nil => ⟨fun left right _ => ⟨left.trans right.symm, rfl⟩⟩
  | .cons _ type rest => by
    constructor
    intro offset block block' after after' as bs left right same
    rcases as with ⟨a, as⟩
    rcases bs with ⟨b, bs⟩
    rcases left with ⟨head, tail, rfl, headLeft, left⟩
    rcases right with ⟨head', tail', rfl, headRight, right⟩
    rw [List.append_assoc, List.append_assoc] at same
    obtain ⟨rfl, rfl⟩ := type.denotes_unambiguous.unique headLeft headRight same
    obtain ⟨rfl, rfl⟩ := rest.denotes_unambiguous.unique left right (List.append_cancel_left same)
    exact ⟨rfl, rfl⟩

end

end Unambiguous

section Size

variable {offset : Nat} {block : List UInt8}

theorem length_of_padded {width : Nat} {word : List UInt8}
    (padded : Padded width offset block word) : block.length = gap offset width + width := by
  rcases padded with ⟨pad, rfl, gapLength, rfl⟩
  rw [List.length_append, gapLength]

theorem four_le_of_denotesNumber {n : Nat} (number : DenotesNumber offset block n) :
    4 ≤ block.length := by
  rcases number with ⟨word, padded, _⟩
  rw [length_of_padded padded]
  exact Nat.le_add_left 4 _

theorem lt_of_denotesNumber {n : Nat} (number : DenotesNumber offset block n) :
    n < halfWordLimit := by
  rcases number with ⟨word, ⟨_, _, _, width⟩, rfl⟩
  have bound := ofLittleEndian_lt word
  rw [width] at bound
  exact bound

theorem mul_le_of_denotesEach {α : Type} {denotes : Nat → List UInt8 → α → Prop} {size : Nat}
    (least : ∀ {offset block content}, denotes offset block content → size ≤ block.length)
    {items : List α} (each : DenotesEach denotes offset block items) :
    items.length * size ≤ block.length := by
  induction items generalizing offset block with
  | nil =>
    rw [List.length_nil, Nat.zero_mul]
    exact Nat.zero_le _
  | cons item rest ih =>
    rcases each with ⟨head, tail, rfl, denotesHead, denotesTail⟩
    have first := least denotesHead
    have others := ih denotesTail
    rw [List.length_cons, Nat.succ_mul, List.length_append]
    omega

mutual

/-- `minimumSize` is a lower bound for every block, the shortest strings included. -/
theorem WireType.minimumSize_le : (type : WireType) → {offset : Nat} → {block : List UInt8} →
    {content : type.Content} → type.Denotes offset block content →
    type.minimumSize ≤ block.length
  | .scalar kind, _, _, _, ⟨_, padded, _⟩ => by
    rw [length_of_padded padded]
    exact Nat.le_add_left _ _
  | .string, _, _, _, ⟨length, body, parts, cases⟩ => by
    rw [parts, List.length_append]
    rcases cases with ⟨number, _⟩ | ⟨number, _⟩ <;>
      exact Nat.le_add_right_of_le (four_le_of_denotesNumber number)
  | .array element length, _, _, items, each => by
    have count : (Vector.toList items).length = length := Vector.length_toList
    have least := mul_le_of_denotesEach element.minimumSize_le each
    rwa [count] at least
  | .sequence _, _, _, _, ⟨count, body, parts, number, _⟩ => by
    rw [parts, List.length_append]
    exact Nat.le_add_right_of_le (four_le_of_denotesNumber number)
  | .record _ _ fields, _, _, _, denotes => fields.minimumSize_le denotes
  | .alias _ target, _, _, _, denotes => target.minimumSize_le denotes

theorem Fields.minimumSize_le : (fields : Fields) → {offset : Nat} → {block : List UInt8} →
    {contents : fields.Content} → fields.Denotes offset block contents →
    fields.minimumSize ≤ block.length
  | .nil, _, _, _, _ => Nat.zero_le _
  | .cons _ type rest, _, _, _, ⟨head, tail, parts, denotesHead, denotesTail⟩ => by
    rw [parts, List.length_append]
    exact Nat.add_le_add (type.minimumSize_le denotesHead) (rest.minimumSize_le denotesTail)

end

end Size

section Layout

theorem padded_aligned (width offset : Nat) {word : List UInt8} (length : word.length = width) :
    Padded width offset (aligned width offset word) word :=
  ⟨zeros (gap offset width), rfl, length_zeros _, length⟩

theorem denotesNumber_aligned (offset : Nat) {n : Nat} (small : n < halfWordLimit) :
    DenotesNumber offset (aligned 4 offset (littleEndian 4 n)) n :=
  ⟨littleEndian 4 n, padded_aligned 4 offset (length_littleEndian 4 n),
    ofLittleEndian_littleEndian 4 n small⟩

theorem denotesString_aligned (offset : Nat) {text : String}
    (small : text.toUTF8.toList.length + 1 < halfWordLimit) :
    DenotesString offset (aligned 4 offset (stringBytes text)) text := by
  refine ⟨aligned 4 offset (littleEndian 4 (text.toUTF8.toList.length + 1)),
    text.toUTF8.toList ++ [0], ?_, .inr ⟨denotesNumber_aligned offset small, rfl⟩⟩
  simp only [aligned, stringBytes, List.append_assoc]

theorem denotesEach_layoutEach {α : Type} {denotes : Nat → List UInt8 → α → Prop}
    {layout : Nat → α → List UInt8} {items : α → List WireItem}
    (one : ∀ offset content, (∀ item ∈ items content, item.Encodable) →
      denotes offset (layout offset content) content)
    (offset : Nat) (contents : List α)
    (encodable : ∀ item ∈ contents.flatMap items, item.Encodable) :
    DenotesEach denotes offset (layoutEach layout offset contents) contents := by
  induction contents generalizing offset with
  | nil => rfl
  | cons content rest ih =>
    simp only [List.flatMap_cons, List.forall_mem_append] at encodable
    exact ⟨_, _, rfl, one offset content encodable.1, ih _ encodable.2⟩

mutual

/-- What is laid out is read back, as far as counts and lengths fit. -/
theorem WireType.denotes_layout : (type : WireType) → (offset : Nat) → (content : type.Content) →
    (∀ item ∈ type.items content, item.Encodable) →
    type.Denotes offset (type.layout offset content) content
  | .scalar kind, offset, value, _ =>
    ⟨kind.bytes value, padded_aligned _ offset (Scalar.length_bytes kind value),
      kind.denotes_bytes value⟩
  | .string, offset, text, encodable =>
    denotesString_aligned offset (encodable (.text text) List.mem_cons_self)
  | .array element _, offset, contents, encodable =>
    denotesEach_layoutEach element.denotes_layout offset (Vector.toList contents) encodable
  | .sequence element, offset, contents, encodable =>
    ⟨_, _, rfl, denotesNumber_aligned offset (encodable (.count _) List.mem_cons_self),
      denotesEach_layoutEach element.denotes_layout _ contents
        fun item member => encodable item (List.mem_cons_of_mem _ member)⟩
  | .record _ _ fields, offset, contents, encodable =>
    fields.denotes_layout offset contents encodable
  | .alias _ target, offset, content, encodable => target.denotes_layout offset content encodable

theorem Fields.denotes_layout : (fields : Fields) → (offset : Nat) →
    (contents : fields.Content) → (∀ item ∈ fields.items contents, item.Encodable) →
    fields.Denotes offset (fields.layout offset contents) contents
  | .nil, _, _, _ => rfl
  | .cons _ type rest, offset, (content, contents), encodable => by
    rw [Fields.items, List.forall_mem_append] at encodable
    exact ⟨_, _, rfl, type.denotes_layout offset content encodable.1,
      rest.denotes_layout _ contents encodable.2⟩

end

end Layout

end WireSchema
