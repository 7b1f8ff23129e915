import Mathlib.Tactic
import WireSchema.WireType

/-! What a value means apart from its storage, and which storage can hold it. -/

namespace WireSchema

mutual

def WireType.Content : WireType → Type
  | .scalar kind => kind.Carrier
  | .string => String
  | .array element length => Vector element.Content length
  | .sequence element => List element.Content
  | .record _ _ fields => fields.Content
  | .alias _ target => target.Content

def Fields.Content : Fields → Type
  | .nil => Unit
  | .cons _ type rest => type.Content × rest.Content

end

mutual

def WireType.content : (type : WireType) → type.Value → type.Content
  | .scalar _, value => value
  | .string, text => text
  | .array element _, items => Vector.map element.content items
  | .sequence element, items => (Sequence.toList items).map element.content
  | .record _ _ fields, values => fields.content values
  | .alias _ target, value => target.content value

def Fields.content : (fields : Fields) → fields.Value → fields.Content
  | .nil, () => ()
  | .cons _ type rest, (value, values) => (type.content value, rest.content values)

end

/-- Each item has a slot of its own, in order, that can hold it; slots may be left over. -/
def CanHoldEach {α β : Type} (canHold : α → β → Prop) : List α → List β → Prop
  | _, [] => True
  | [], _ :: _ => False
  | slot :: slots, item :: items => canHold slot item ∧ CanHoldEach canHold slots items

mutual

/-- Only sequences can be too small: each that gets elements needs a slot of exclusive storage for
every one of them. -/
def WireType.CanHold : (type : WireType) → type.Value → type.Content → Prop
  | .scalar _, _, _ => True
  | .string, _, _ => True
  | .array element _, slots, items =>
    CanHoldEach element.CanHold (Vector.toList slots) (Vector.toList items)
  | .sequence element, target, items =>
    CanHoldEach element.CanHold (Sequence.storage target) items
  | .record _ _ fields, targets, contents => fields.CanHold targets contents
  | .alias _ aliased, target, content => aliased.CanHold target content

def Fields.CanHold : (fields : Fields) → fields.Value → fields.Content → Prop
  | .nil, (), () => True
  | .cons _ type rest, (target, targets), (content, contents) =>
    type.CanHold target content ∧ rest.CanHold targets contents

end

def decideCanHoldEach {α β : Type} {canHold : α → β → Prop}
    (decide : (slot : α) → (item : β) → Decidable (canHold slot item)) :
    (slots : List α) → (items : List β) → Decidable (CanHoldEach canHold slots items)
  | [], [] | _ :: _, [] => isTrue trivial
  | [], _ :: _ => isFalse not_false
  | slot :: slots, item :: items =>
    @instDecidableAnd _ _ (decide slot item) (decideCanHoldEach decide slots items)

mutual

def WireType.decideCanHold : (type : WireType) → (target : type.Value) →
    (content : type.Content) → Decidable (type.CanHold target content)
  | .scalar _, _, _ | .string, _, _ => isTrue trivial
  | .array element _, slots, items =>
    decideCanHoldEach element.decideCanHold (Vector.toList slots) (Vector.toList items)
  | .sequence element, target, items =>
    decideCanHoldEach element.decideCanHold (Sequence.storage target) items
  | .record _ _ fields, targets, contents => fields.decideCanHold targets contents
  | .alias _ aliased, target, content => aliased.decideCanHold target content

def Fields.decideCanHold : (fields : Fields) → (targets : fields.Value) →
    (contents : fields.Content) → Decidable (fields.CanHold targets contents)
  | .nil, (), () => isTrue trivial
  | .cons _ type rest, (target, targets), (content, contents) =>
    @instDecidableAnd _ _ (type.decideCanHold target content)
      (rest.decideCanHold targets contents)

end

instance (type : WireType) (target : type.Value) (content : type.Content) :
    Decidable (type.CanHold target content) :=
  type.decideCanHold target content

section CanHoldEach

variable {α β : Type} {canHold : α → β → Prop}

theorem canHoldEach_nil (slots : List α) : CanHoldEach canHold slots [] := by
  cases slots <;> exact trivial

theorem length_le_of_canHoldEach {slots : List α} {items : List β}
    (fits : CanHoldEach canHold slots items) : items.length ≤ slots.length := by
  induction items generalizing slots with
  | nil => exact Nat.zero_le _
  | cons item items ih =>
    cases slots with
    | nil => exact fits.elim
    | cons slot slots =>
      have := ih fits.2
      simp only [List.length_cons]
      omega

theorem canHoldEach_append {slots : List α} {items : List β} (more : List α)
    (fits : CanHoldEach canHold slots items) : CanHoldEach canHold (slots ++ more) items := by
  induction items generalizing slots with
  | nil => exact canHoldEach_nil _
  | cons item items ih =>
    cases slots with
    | nil => exact fits.elim
    | cons slot slots => exact ⟨fits.1, ih fits.2⟩

theorem canHoldEach_take {slots : List α} {items : List β}
    (fits : CanHoldEach canHold slots items) :
    CanHoldEach canHold (slots.take items.length) items := by
  induction items generalizing slots with
  | nil => exact canHoldEach_nil _
  | cons item items ih =>
    cases slots with
    | nil => exact fits.elim
    | cons slot slots => exact ⟨fits.1, ih fits.2⟩

end CanHoldEach

end WireSchema
