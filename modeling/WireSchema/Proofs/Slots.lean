import WireSchema.Proofs.Decoding
import WireSchema.WireType.Codec

/-! A sequence as slots, with the end of every range checked. -/

namespace WireSchema

/-- Slots, and how many of the first of them are filled. Only exclusive ones are written to. -/
structure Slots (α : Type) where
  exclusive : Bool
  cells : List α
  length : Nat

namespace Sequence

inductive Operation (α : Type) where
  | push (value : α)
  | clear
  | set (index : Nat) (value : α)
  | decode (r : Reader)

inductive Answer where
  | done
  | failed (e : CodecError)
  | refused (why : SetRefusal)
  deriving DecidableEq, Repr

def Answer.ofResult : Except CodecError Unit → Answer
  | .ok () => .done
  | .error e => .failed e

inductive Origin (α : Type) where
  | lent (items : List α)
  | empty
  | storage (cells : List α)
  | filled (cells : List α) (length : Nat)

end Sequence

def Decoded.map {α β : Type} (f : α → β) (decoded : Decoded α) : Decoded β :=
  ⟨f decoded.target, decoded.reader, decoded.result⟩

namespace Slots

open Sequence (Operation Answer Origin)

variable {α : Type}

def ofItems (items : List α) : Slots α := ⟨false, items, items.length⟩

def withStorage (cells : List α) : Slots α := ⟨true, cells, 0⟩

def fromStorage (cells : List α) (length : Nat) : Slots α :=
  ⟨true, cells, min length cells.length⟩

def ofOrigin : Origin α → Slots α
  | .lent items => ofItems items
  | .empty => ofItems []
  | .storage cells => withStorage cells
  | .filled cells length => fromStorage cells length

def capacity (s : Slots α) : Nat := if s.exclusive then s.cells.length else 0

def elements? (s : Slots α) : Option (List α) :=
  if s.length ≤ s.cells.length then some (s.cells.take s.length) else none

def push (s : Slots α) (value : α) : Answer × Slots α :=
  if s.exclusive ∧ s.length < s.cells.length then
    (.done, { s with cells := s.cells.set s.length value, length := s.length + 1 })
  else (.failed (.sequenceCapacity (s.length + 1) s.capacity), s)

def clear (s : Slots α) : Slots α :=
  if s.exclusive then { s with length := 0 } else ofItems []

def set? (s : Slots α) (index : Nat) (value : α) : Option (Answer × Slots α) :=
  if s.exclusive then
    s.elements?.map fun elements =>
      if index < elements.length then (.done, { s with cells := s.cells.set index value })
      else (.refused .outOfRange, s)
  else some (.refused .shared, s)

/-- Decodes into one slot after the other. A slot counts as an element once it is decoded. -/
def fill? (decode : α → Reader → Decoded α) : Nat → Slots α → Reader → Option (Decoded (Slots α))
  | 0, s, r => some ⟨s, r, .ok ()⟩
  | left + 1, s, r => do
    let slot ← s.cells[s.length]?
    let decoded := decode slot r
    let cells := s.cells.set s.length decoded.target
    match decoded.result with
    | .error e => return ⟨{ s with cells }, decoded.reader, .error e⟩
    | .ok () => fill? decode left { s with cells, length := s.length + 1 } decoded.reader

def decodeInto? (minimumSize : Nat) (decode : α → Reader → Decoded α) (s : Slots α) (r : Reader) :
    Option (Decoded (Slots α)) :=
  match Reader.count minimumSize r with
  | .error e r => some ⟨s, r, .error e⟩
  | .ok count r =>
    if count = 0 then some ⟨s.clear, r, .ok ()⟩
    else if s.exclusive ∧ count ≤ s.cells.length then fill? decode count { s with length := 0 } r
    else some ⟨s, r, .error (.sequenceCapacity count s.capacity)⟩

def encode? (encode : α → Write Unit) (s : Slots α) : Option (Write Unit) :=
  s.elements?.map fun elements => do
    Writer.count s.length
    encodeEach encode elements

def same? (eq : α → α → Bool) (a b : Slots α) : Option Bool := do
  return (← a.elements?).isEqv (← b.elements?) eq

section Run

variable (minimumSize : Nat) (decode : α → Reader → Decoded α)

def perform? (s : Slots α) : Operation α → Option (Answer × Slots α)
  | .push value => some (s.push value)
  | .clear => some (.done, s.clear)
  | .set index value => s.set? index value
  | .decode r => (s.decodeInto? minimumSize decode r).map fun decoded =>
    (.ofResult decoded.result, decoded.target)

def performAll? (s : Slots α) : List (Operation α) → Option (List Answer × Slots α)
  | [] => some ([], s)
  | operation :: rest => do
    let (answer, next) ← s.perform? minimumSize decode operation
    let (answers, last) ← next.performAll? rest
    return (answer :: answers, last)

end Run

end Slots

namespace Sequence

variable {α : Type}

def ofOrigin : Origin α → Sequence α
  | .lent items => .shared items
  | .empty => .empty
  | .storage cells => .withStorage cells
  | .filled cells length => .fromStorage cells length

def slots : Sequence α → Slots α
  | .shared items => .ofItems items
  | .exclusive filled spare => ⟨true, filled ++ spare, filled.length⟩

section Run

variable (minimumSize : Nat) (decode : α → Reader → Decoded α)

def perform (s : Sequence α) : Operation α → Answer × Sequence α
  | .push value =>
    match s.push value with
    | .ok next => (.done, next)
    | .error e => (.failed e, s)
  | .clear => (.done, s.clear)
  | .set index value =>
    match s.set index value with
    | .ok next => (.done, next)
    | .error why => (.refused why, s)
  | .decode r =>
    let decoded := s.decodeInto minimumSize decode r
    (.ofResult decoded.result, decoded.target)

def performAll (s : Sequence α) : List (Operation α) → List Answer × Sequence α
  | [] => ([], s)
  | operation :: rest =>
    let (answer, next) := s.perform minimumSize decode operation
    let (answers, last) := next.performAll rest
    (answer :: answers, last)

end Run

@[simp]
theorem slots_ofOrigin (origin : Origin α) : (ofOrigin origin).slots = .ofOrigin origin := by
  cases origin with
  | lent items => rfl
  | empty => rfl
  | storage cells => rfl
  | filled cells length =>
    simp [ofOrigin, fromStorage, slots, Slots.ofOrigin, Slots.fromStorage]

@[simp]
theorem length_slots (s : Sequence α) : s.slots.length = s.size := by
  cases s <;> rfl

@[simp]
theorem capacity_slots (s : Sequence α) : s.slots.capacity = s.capacity := by
  cases s <;> rfl

@[simp]
theorem elements?_slots (s : Sequence α) : s.slots.elements? = some s.toList := by
  cases s <;> simp [slots, Slots.ofItems, Slots.elements?, toList]

@[simp]
theorem clear_slots (s : Sequence α) : s.slots.clear = s.clear.slots := by
  cases s <;> rfl

theorem exists_exclusive_of_room {s : Sequence α} {count : Nat} (positive : 0 < count)
    (room : count ≤ s.storage.length) : ∃ filled spare, s = .exclusive filled spare := by
  cases s with
  | shared items => exact absurd room (Nat.not_le.mpr positive)
  | exclusive filled spare => exact ⟨filled, spare, rfl⟩

end Sequence

namespace Slots

open Sequence (Operation)

variable {α : Type} (minimumSize : Nat) (decode : α → Reader → Decoded α)

/-- The loop from behind the elements that it has decoded already, `before`. -/
theorem fill?_eq (before slots behind : List α) (r : Reader) :
    fill? decode slots.length ⟨true, before ++ (slots ++ behind), before.length⟩ r =
      some ⟨(Sequence.exclusive (before ++ (fillEach decode slots r).done)
          ((fillEach decode slots r).left ++ behind)).slots,
        (fillEach decode slots r).reader, (fillEach decode slots r).result⟩ := by
  induction slots generalizing before r with
  | nil => simp [fill?, fillEach, Sequence.slots]
  | cons slot rest ih =>
    have here : (before ++ (slot :: rest ++ behind))[before.length]? = some slot := by
      simp
    have put (target : α) : (before ++ (slot :: rest ++ behind)).set before.length target =
        (before ++ [target]) ++ (rest ++ behind) := by
      simp
    rw [List.length_cons, fill?]
    simp only [here, put, Option.bind_eq_bind, Option.bind_some]
    cases ended : (decode slot r).result with
    | error e =>
      rw [fillEach_cons_of_error ended]
      simp [Sequence.slots]
    | ok done =>
      rw [fillEach_cons_of_ok ended]
      have next := ih (before ++ [(decode slot r).target]) (decode slot r).reader
      rw [List.length_append, List.length_singleton] at next
      simp only [next]
      simp

theorem fill?_of_room {cells : List α} {count : Nat} (room : count ≤ cells.length) (r : Reader) :
    fill? decode count ⟨true, cells, 0⟩ r =
      some ⟨(Sequence.exclusive (fillEach decode (cells.take count) r).done
          ((fillEach decode (cells.take count) r).left ++ cells.drop count)).slots,
        (fillEach decode (cells.take count) r).reader,
        (fillEach decode (cells.take count) r).result⟩ := by
  have loop := fill?_eq decode [] (cells.take count) (cells.drop count) r
  rw [List.take_append_drop, List.length_take_of_le room] at loop
  exact loop

theorem decodeInto?_slots (s : Sequence α) (r : Reader) :
    s.slots.decodeInto? minimumSize decode r =
      some ((s.decodeInto minimumSize decode r).map Sequence.slots) := by
  cases counted : Reader.count minimumSize r with
  | error e middle =>
    rw [decodeInto?, counted, Sequence.decodeInto_of_error counted]
    rfl
  | ok count middle =>
    rw [decodeInto?, counted]
    rcases Nat.eq_zero_or_pos count with rfl | occupied
    · rw [Sequence.decodeInto_of_zero counted]
      simp [Decoded.map]
    · have positive : count ≠ 0 := Nat.pos_iff_ne_zero.mp occupied
      rcases Nat.lt_or_ge s.storage.length count with scarce | room
      · have refused : ¬ (s.slots.exclusive = true ∧ count ≤ s.slots.cells.length) := by
          cases s with
          | shared items => simp [Sequence.slots, ofItems]
          | exclusive filled spare => exact fun fits => Nat.not_lt.mpr fits.2 scarce
        rw [Sequence.decodeInto_of_scarce counted scarce]
        simp only [positive, refused, if_false, Sequence.capacity_slots]
        rfl
      · rw [Sequence.decodeInto_of_room counted occupied room]
        obtain ⟨filled, spare, rfl⟩ := Sequence.exists_exclusive_of_room occupied room
        have fits : (Sequence.exclusive filled spare).slots.exclusive = true ∧
          count ≤ (Sequence.exclusive filled spare).slots.cells.length := ⟨rfl, room⟩
        simp only [positive, fits, if_false, and_self, if_true]
        exact fill?_of_room decode room middle

theorem push_slots (s : Sequence α) (value : α) : s.slots.push value =
    (s.perform minimumSize decode (.push value)).map id Sequence.slots := by
  cases s with
  | shared items => rfl
  | exclusive filled spare =>
    cases spare with
    | nil =>
      have full : ¬ (true = true ∧ filled.length < (filled ++ []).length) := by
        simp
      rw [Sequence.slots, push, if_neg full]
      rfl
    | cons slot spare =>
      have room : true = true ∧ filled.length < (filled ++ slot :: spare).length := by
        simp
      rw [Sequence.slots, push, if_pos room]
      simp [Sequence.perform, Sequence.push, Sequence.slots]

theorem set?_slots (s : Sequence α) (index : Nat) (value : α) : s.slots.set? index value =
    some ((s.perform minimumSize decode (.set index value)).map id Sequence.slots) := by
  rw [set?, Sequence.elements?_slots, Option.map_some]
  cases s with
  | shared items => rfl
  | exclusive filled spare =>
    rw [Sequence.perform, Sequence.set]
    by_cases inside : index < filled.length
    · simp [Sequence.slots, Sequence.toList, inside, List.set_append_left]
    · simp [Sequence.slots, Sequence.toList, inside]

/-- A step on the slots is the step on the sequence, and no range of it ends behind the slots. -/
theorem perform?_slots (s : Sequence α) (operation : Operation α) :
    s.slots.perform? minimumSize decode operation =
      some ((s.perform minimumSize decode operation).map id Sequence.slots) := by
  cases operation with
  | push value => rw [perform?, push_slots minimumSize decode]
  | clear => simp [perform?, Sequence.perform]
  | set index value => rw [perform?, set?_slots minimumSize decode]
  | decode r =>
    rw [perform?, decodeInto?_slots]
    rfl

theorem performAll?_slots (s : Sequence α) (operations : List (Operation α)) :
    s.slots.performAll? minimumSize decode operations =
      some ((s.performAll minimumSize decode operations).map id Sequence.slots) := by
  induction operations generalizing s with
  | nil => rfl
  | cons operation rest ih =>
    simp only [performAll?, perform?_slots, Option.bind_eq_bind, Option.bind_some, Prod.map, ih]
    rfl

theorem encode?_slots (encode : α → Write Unit) (s : Sequence α) :
    s.slots.encode? encode = some (s.encode encode) := by
  rw [encode?, Sequence.elements?_slots, Sequence.length_slots, Option.map_some, Sequence.encode]

theorem same?_slots (eq : α → α → Bool) (a b : Sequence α) :
    a.slots.same? eq b.slots = some (a.same eq b) := by
  rw [same?, Sequence.elements?_slots, Sequence.elements?_slots]
  rfl

end Slots

end WireSchema
