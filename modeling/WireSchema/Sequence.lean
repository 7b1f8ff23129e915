import WireSchema.Error

/-! Lists in storage that the caller supplies: shared, or slots of which the first are filled. -/

namespace WireSchema

inductive Sequence (α : Type) where
  | shared (items : List α)
  | exclusive (filled spare : List α)
  deriving Repr

namespace Sequence

variable {α : Type}

def empty : Sequence α := .shared []

def withStorage (slots : List α) : Sequence α := .exclusive [] slots

/-- Storage whose first `length` slots, or all if there are fewer, are elements. -/
def fromStorage (slots : List α) (length : Nat) : Sequence α :=
  .exclusive (slots.take length) (slots.drop length)

def toList : Sequence α → List α
  | .shared items => items
  | .exclusive filled _ => filled

def size (s : Sequence α) : Nat := s.toList.length

def isEmpty (s : Sequence α) : Bool := s.toList.isEmpty

def storage : Sequence α → List α
  | .shared _ => []
  | .exclusive filled spare => filled ++ spare

def capacity (s : Sequence α) : Nat := s.storage.length

def push (s : Sequence α) (value : α) : Except CodecError (Sequence α) :=
  match s with
  | .exclusive filled (_ :: spare) => .ok (.exclusive (filled ++ [value]) spare)
  | s => .error (.sequenceCapacity (s.size + 1) s.capacity)

def clear : Sequence α → Sequence α
  | .shared _ => .shared []
  | .exclusive filled spare => .exclusive [] (filled ++ spare)

@[simp]
theorem storage_clear (s : Sequence α) : s.clear.storage = s.storage := by
  cases s <;> rfl

@[simp]
theorem toList_clear (s : Sequence α) : s.clear.toList = [] := by
  cases s <;> rfl

inductive SetRefusal where
  | shared
  | outOfRange
  deriving DecidableEq, Repr

def set (s : Sequence α) (index : Nat) (value : α) : Except SetRefusal (Sequence α) :=
  match s with
  | .shared _ => .error .shared
  | .exclusive filled spare =>
    if index < filled.length then .ok (.exclusive (filled.set index value) spare)
    else .error .outOfRange

def same (eq : α → α → Bool) (a b : Sequence α) : Bool := a.toList.isEqv b.toList eq

def text (item : α → String) (s : Sequence α) : String :=
  "[" ++ ", ".intercalate (s.toList.map item) ++ "]"

end Sequence

end WireSchema
